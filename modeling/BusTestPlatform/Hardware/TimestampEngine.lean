import BusTestPlatform.Lib.Clocked

/-!
# `timestamp_engine.v`

The 64-bit counter of 100 ns ticks. Registers are the state; `step` is one rising clock edge
with `rst_n` high, and `reset` is what the asynchronous reset leaves behind.
-/

namespace BusTestPlatform

/-- Registers of `timestamp_engine` (`TS_WIDTH = 64`). -/
structure TimestampEngine where
  cnt : BitVec 64
  tsOut : BitVec 64
deriving DecidableEq, Repr

namespace TimestampEngine

/-- Inputs of `timestamp_engine` at one clock edge. -/
structure In where
  captureEn : Bool
  ppsAdjEn : Bool
  adjDelta : BitVec 32

def reset : TimestampEngine := { cnt := 0, tsOut := 0 }

/-- `assign ts_now = cnt`. -/
def tsNow (s : TimestampEngine) : BitVec 64 := s.cnt

def step (s : TimestampEngine) (i : In) : TimestampEngine where
  cnt := if i.ppsAdjEn then s.cnt + i.adjDelta.signExtend 64 else s.cnt + 1
  tsOut := if i.captureEn then s.cnt else s.tsOut

@[simp] lemma reset_cnt : reset.cnt = 0 := rfl

@[simp] lemma reset_tsOut : reset.tsOut = 0 := rfl

@[simp] lemma step_cnt (s : TimestampEngine) (i : In) :
    (s.step i).cnt = if i.ppsAdjEn then s.cnt + i.adjDelta.signExtend 64 else s.cnt + 1 := rfl

@[simp] lemma step_tsOut (s : TimestampEngine) (i : In) :
    (s.step i).tsOut = if i.captureEn then s.cnt else s.tsOut := rfl

end TimestampEngine

end BusTestPlatform

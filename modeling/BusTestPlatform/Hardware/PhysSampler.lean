import BusTestPlatform.Lib.Clocked

/-!
# `phys_sampler.v`

One channel's sample ring, with `DEPTH = 2 ^ ADDR_WIDTH`. The memory is not reset, so the reset
state takes its contents as a parameter.
-/

namespace BusTestPlatform

/-- Registers and memory of `phys_sampler`. -/
structure PhysSampler (addrWidth : ℕ) where
  wp : BitVec addrWidth
  mem : BitVec addrWidth → Bool
  captureOn : Bool
  rdAddr : BitVec addrWidth

namespace PhysSampler

variable {addrWidth : ℕ}

/-- Inputs of `phys_sampler` at one clock edge; `rd_clk` is the same clock in every instance. -/
structure In (addrWidth : ℕ) where
  busLevel : Bool
  arm : Bool
  stop : Bool
  trig : Bool
  rdAddr : BitVec addrWidth

def reset (mem : BitVec addrWidth → Bool) : PhysSampler addrWidth where
  wp := 0
  mem := mem
  captureOn := false
  rdAddr := 0

def step (s : PhysSampler addrWidth) (i : In addrWidth) : PhysSampler addrWidth where
  wp := if i.trig then s.wp else if s.captureOn then s.wp + 1 else s.wp
  mem := if s.captureOn then Function.update s.mem s.wp i.busLevel else s.mem
  captureOn := if i.stop then false else if i.arm then true else s.captureOn
  rdAddr := i.rdAddr

/-- `assign rd_data = mem[rd_addr_r]`. -/
def rdData (s : PhysSampler addrWidth) : Bool := s.mem s.rdAddr

end PhysSampler

end BusTestPlatform

import BusTestPlatform.Hardware.TimestampEngine
import BusTestPlatform.Hardware.PpsSync
import BusTestPlatform.Hardware.TxScheduler
import BusTestPlatform.Hardware.HwFilter
import BusTestPlatform.Hardware.ErrorInjector
import BusTestPlatform.Hardware.PhysSampler

/-!
# `top.v`

The register interface of the coprocessor and the wiring of its blocks, with the default
parameters `CHANNELS = 4`, `SLOTS = 16` and `pps_sync`'s default `SYNC_TICKS = 20`.

A run of the device is `Top.run`: the registers before every clock edge after reset, for any
stream of MCU accesses and PPS samples.
-/

namespace BusTestPlatform

/-- The instances of one `g_ch` iteration. -/
structure Channel where
  filter : HwFilter
  injector : ErrorInjector
  sampler : PhysSampler 12

/-- All registers of `top`. -/
structure Top where
  ts : TimestampEngine
  pps : PpsSync 20
  ch : Fin 4 → Channel
  txs : TxScheduler 4
  captureLatch : Bool
  tsLatched : BitVec 64

namespace Top

/-- Inputs of `top` at one clock edge. `ackLast` resolves `tx_scheduler`'s race on `next`. -/
structure In where
  ppsIn : Bool
  mcuAddr : BitVec 8
  mcuWdata : BitVec 32
  mcuWe : Bool
  ackLast : Bool

/-- `mcu_addr[7:4]`. -/
def In.block (i : In) : BitVec 4 := i.mcuAddr.extractLsb' 4 4

/-- `mcu_addr[3:0]`. -/
def In.index (i : In) : BitVec 4 := i.mcuAddr.extractLsb' 0 4

/-- The write strobe of channel `c` of the block at `hi`: `flt_we`, `inj_we`, `smp_we`. -/
def In.channelWe (i : In) (hi : BitVec 4) (c : Fin 4) : Bool :=
  i.mcuWe && i.block == hi && i.index == BitVec.ofNat 4 c

def In.filterIn (i : In) (c : Fin 4) : HwFilter.In where
  cfgWe := i.channelWe 2 c
  cfgMask := i.mcuWdata.setWidth 29
  cfgValue := i.mcuWdata.setWidth 29
  cfgLo := i.mcuWdata.setWidth 29
  cfgHi := i.mcuWdata.setWidth 29
  cfgAcceptExt := i.mcuWdata.getLsbD 31

/-- `frame_active` and `bit_tick` are tied low in this skeleton. -/
def In.injectorIn (i : In) (c : Fin 4) : ErrorInjector.In where
  cfgWe := i.channelWe 3 c
  cfgType := i.mcuWdata.extractLsb' 0 3
  cfgBitPos := i.mcuWdata.extractLsb' 3 16
  cfgGlitchNs := i.mcuWdata.extractLsb' 19 8
  frameActive := false
  bitTick := false

/-- The sampler of every channel sees bits 0 and 1 of the data bus; `smp_we` drives nothing. -/
def In.samplerIn (i : In) : PhysSampler.In 12 where
  busLevel := false
  arm := i.mcuWdata.getLsbD 0
  stop := i.mcuWdata.getLsbD 1
  trig := false
  rdAddr := 0

/-- The connections of `u_txs`: the acknowledgement is the dispatch pulse itself. -/
def In.txsIn (i : In) (tsNow : BitVec 64) (txsPulse : Bool) : TxScheduler.In 4 where
  cfgWe := i.mcuWe && i.block == 5
  cfgSlot := i.index
  cfgPeriodTicks := i.mcuWdata
  baseTick := tsNow.setWidth 32
  slotAck := txsPulse
  ackLast := i.ackLast

def Channel.step (s : Channel) (i : In) (c : Fin 4) : Channel where
  filter := s.filter.step (i.filterIn c)
  injector := s.injector.step (i.injectorIn c)
  sampler := s.sampler.step i.samplerIn

/-- Registers after reset. The sample memories hold whatever they powered up with. -/
def reset (mem : Fin 4 → BitVec 12 → Bool) : Top where
  ts := TimestampEngine.reset
  pps := PpsSync.reset 20
  ch c := { filter := HwFilter.reset, injector := ErrorInjector.reset,
            sampler := PhysSampler.reset (mem c) }
  txs := TxScheduler.reset 4
  captureLatch := false
  tsLatched := 0

def step (s : Top) (i : In) : Top where
  ts := s.ts.step
    { captureEn := s.captureLatch, ppsAdjEn := s.pps.adjValid, adjDelta := s.pps.adjDelta }
  pps := s.pps.step { ppsIn := i.ppsIn, tsNow := s.ts.tsNow }
  ch c := Channel.step (s.ch c) i c
  txs := s.txs.step (i.txsIn s.ts.tsNow s.txs.dispatchPulse)
  captureLatch := i.mcuWe && i.mcuAddr == 0x00
  tsLatched := if s.captureLatch then s.ts.tsOut else s.tsLatched

/-- The combinational read mux `mcu_rdata`. -/
def mcuRdata (s : Top) (mcuAddr : BitVec 8) : BitVec 32 :=
  if mcuAddr = 0x00 then s.tsLatched.setWidth 32
  else if mcuAddr = 0x04 then s.tsLatched.extractLsb' 32 32
  else if mcuAddr = 0x08 then s.ts.tsNow.setWidth 32
  else if mcuAddr = 0x0C then s.ts.tsNow.extractLsb' 32 32
  else if mcuAddr = 0x10 then s.pps.adjDelta
  else 0xDEADBEEF

/-- The registers before clock edge `n` after reset. -/
def run (mem : Fin 4 → BitVec 12 → Bool) (inp : ℕ → In) : ℕ → Top :=
  Clocked.runFrom step (reset mem) inp

section
variable (mem : Fin 4 → BitVec 12 → Bool) (inp : ℕ → In)

@[simp] lemma run_zero : run mem inp 0 = reset mem := rfl

lemma run_succ (n : ℕ) : run mem inp (n + 1) = (run mem inp n).step (inp n) := rfl

end

end Top

end BusTestPlatform

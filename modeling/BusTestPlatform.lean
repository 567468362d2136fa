import BusTestPlatform.Hardware.LatchRegister
import BusTestPlatform.Hardware.TxRate
import BusTestPlatform.Hardware.TxJitter
import BusTestPlatform.Hardware.TxReconfigure
import BusTestPlatform.Hardware.InjectWidth
import BusTestPlatform.Hardware.PpsLoop
import BusTestPlatform.Hardware.RegisterMap
import BusTestPlatform.Hardware.SampleRing
import BusTestPlatform.Hardware.PpsDetect
import BusTestPlatform.Hardware.PpsCorrection
import BusTestPlatform.Hardware.TimestampCount
import BusTestPlatform.Software.PipelineWrap
import BusTestPlatform.Software.CaptureNoLoss
import BusTestPlatform.Software.CaptureSingle
import BusTestPlatform.Software.DbcByteOrder
import BusTestPlatform.Software.DbcRender
import BusTestPlatform.Software.DbcFailedLoad
import BusTestPlatform.Software.RbsDueFrames
import BusTestPlatform.Software.RbsNewTask
import BusTestPlatform.Software.DecodedValue
import BusTestPlatform.Software.SimStream
import BusTestPlatform.Software.SimReopen
import BusTestPlatform.Software.SimSafety
import BusTestPlatform.Software.ShortFrame
import BusTestPlatform.Software.DbcNumerals
import BusTestPlatform.Software.DbcComposition
import BusTestPlatform.Software.DbcGrammar
import BusTestPlatform.Software.DbcBlanks
import BusTestPlatform.Link.FrameLayout
import BusTestPlatform.Link.Mirror
import BusTestPlatform.Link.DecodedFrames
import BusTestPlatform.Link.CodecBounds
import BusTestPlatform.Link.PacketBytes
import BusTestPlatform.Software.SimPeriod
import BusTestPlatform.Software.SimFairness
import BusTestPlatform.Software.TraceLine
import BusTestPlatform.Software.CaptureStop
import BusTestPlatform.Software.CaptureStream
import BusTestPlatform.Software.PipelineReset
import BusTestPlatform.Software.Workspace
import BusTestPlatform.Software.DecodedBits
import BusTestPlatform.Hardware.TxStarvation
import BusTestPlatform.Hardware.InjectClass
import BusTestPlatform.Hardware.FilterWord
import BusTestPlatform.Software.SignalPacking
import BusTestPlatform.Software.RbsTickSplit
import BusTestPlatform.Software.CaptureTiming
import BusTestPlatform.Software.DbcErrors
import BusTestPlatform.Link.PacketStream
import BusTestPlatform.Lib.Strings
import BusTestPlatform.Software.DbcSafety

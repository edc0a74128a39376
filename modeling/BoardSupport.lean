import BoardSupport.Bench.LogSession
import BoardSupport.Bench.Machine
import BoardSupport.Bench.Perform
import BoardSupport.Board.LinearMemory
import BoardSupport.Proofs.ChannelBooks
import BoardSupport.Proofs.ClaimHistory
import BoardSupport.Proofs.Conservation
import BoardSupport.Proofs.CounterWrite
import BoardSupport.Proofs.Draining
import BoardSupport.Proofs.FatalTrap
import BoardSupport.Proofs.FrameTransfer
import BoardSupport.Proofs.LineEncoding
import BoardSupport.Proofs.LineParity
import BoardSupport.Proofs.LineRate
import BoardSupport.Proofs.Loopback
import BoardSupport.Proofs.LossReport
import BoardSupport.Proofs.MaskNesting
import BoardSupport.Proofs.NonBlocking
import BoardSupport.Proofs.PinSettings
import BoardSupport.Proofs.PositionWrap
import BoardSupport.Proofs.PrefixLog
import BoardSupport.Proofs.Reentrance
import BoardSupport.Proofs.SelfTestVerdict
import BoardSupport.Proofs.Separation
import BoardSupport.Proofs.ShortRecords
import BoardSupport.Proofs.SourceIsolation
import BoardSupport.Proofs.SourceSettings
import BoardSupport.Proofs.Starvation
import BoardSupport.Proofs.SystemTimer
import BoardSupport.Proofs.Thresholds
import BoardSupport.Proofs.Transfers
import BoardSupport.Proofs.TrapNesting
import BoardSupport.Proofs.TrapSequence
import BoardSupport.Proofs.UnitClock
import BoardSupport.Proofs.UnitSettings
import BoardSupport.Proofs.Urgency
import BoardSupport.Proofs.WideCounter

import Bcm.Lib.Backlog
import Bcm.Lib.BoundedQueue
import Bcm.Lib.Checksum
import Bcm.Lib.EventGroup
import Bcm.Lib.FirstMatch
import Bcm.Lib.FirstSeen
import Bcm.Lib.Framing
import Bcm.Lib.Latch
import Bcm.Lib.LeakyAverage
import Bcm.Lib.LossyPipe
import Bcm.Lib.MessageQueue
import Bcm.Lib.PartialRuns
import Bcm.Lib.PeriodicDelay
import Bcm.Lib.Register
import Bcm.Lib.Ring
import Bcm.Lib.Runs
import Bcm.Lib.Script
import Bcm.Lib.Stopwatch
import Bcm.Lib.Toggles
import Bcm.Lib.Transducer
import Bcm.Types
import Bcm.Drivers
import Bcm.Debounce
import Bcm.Blink
import Bcm.Fsm
import Bcm.Lighting
import Bcm.Door
import Bcm.Power
import Bcm.Records
import Bcm.Arbiter
import Bcm.Core
import Bcm.CoreRun
import Bcm.Crc8
import Bcm.Protocol
import Bcm.FrameCodec
import Bcm.Dispatcher
import Bcm.Commands
import Bcm.CommMgr
import Bcm.App
import Bcm.RingBuffer
import Bcm.Uart
import Bcm.UartSteps
import Bcm.Line
import Bcm.DiagMgr
import Bcm.Post
import Bcm.LogTask
import Bcm.RtosApp
import Bcm.WatchdogClock
import Bcm.Board
import Bcm.Firmware
import Bcm.DesktopCodec
import Bcm.DesktopClient
import Bcm.DesktopQueries
import Bcm.Talk
import Bcm.Sil
import Bcm.Proof.CoreStep
import Bcm.Proof.SafetyEnvelope
import Bcm.Proof.HostOverlay
import Bcm.Proof.DoorGuard
import Bcm.Proof.LockRefusal
import Bcm.Proof.DoorTimers
import Bcm.Proof.Inactivity
import Bcm.Proof.PowerTimers
import Bcm.Proof.HazardLamps
import Bcm.Proof.AutoHeadlight
import Bcm.Proof.Headlights
import Bcm.Proof.DriverChoice
import Bcm.Proof.WelcomeLight
import Bcm.Proof.FirstReading
import Bcm.Proof.IgnitionHold
import Bcm.Proof.HornChirps
import Bcm.Proof.HornLimit
import Bcm.Proof.HornStretch
import Bcm.Proof.EventLog
import Bcm.Proof.StepRecords
import Bcm.Proof.EventPairs
import Bcm.Proof.Alternation
import Bcm.Proof.FaultStore
import Bcm.Proof.FaultReports
import Bcm.Proof.Likeness
import Bcm.Proof.Reset
import Bcm.Proof.FrameGrammar
import Bcm.Proof.FrameStreams
import Bcm.Proof.BitFlip
import Bcm.Proof.ErrorPatterns
import Bcm.Proof.ByteSwaps
import Bcm.Proof.Resync
import Bcm.Proof.Requests
import Bcm.Proof.DoorRequests
import Bcm.Proof.Rejections
import Bcm.Proof.LinkSupervision
import Bcm.Proof.Chunking
import Bcm.Proof.Loopback
import Bcm.Proof.FrameDelivery
import Bcm.Proof.UartTx
import Bcm.Proof.Supervision
import Bcm.Proof.DesktopCodec
import Bcm.Proof.StaleReply
import Bcm.Proof.StatusQueries
import Bcm.Proof.Chatter
import Bcm.Proof.TimerPeriods
import Bcm.Proof.LowPass
import Bcm.Proof.ByteQueue
import Bcm.Proof.LogQueue
import Bcm.Proof.FaultHistory
import Bcm.Proof.DebounceWindow
import Bcm.Proof.BlinkPhase
import Bcm.Proof.Unison
import Bcm.Proof.RowOrder
import Bcm.Proof.LinkBytes
import Bcm.Proof.ReceivePath
import Bcm.Proof.ReceiveSteps
import Bcm.Proof.ReceiveAtomic
import Bcm.Proof.FirmwareCore
import Bcm.Proof.HostRequests
import Bcm.Proof.HostDesk
import Bcm.Proof.UnlockCause
import Bcm.Proof.OverrunReport
import Bcm.Proof.LinkLoss
import Bcm.Proof.BoardSafety
import Bcm.Proof.BrakeLamp
import Bcm.Proof.LockAgain
import Bcm.Proof.EventFrames
import Bcm.Proof.EventPath
import Bcm.Proof.ReplyPath
import Bcm.Proof.PollBudget
import Bcm.Proof.RemoteCalls
import Bcm.Proof.StatusCurrent
import Bcm.Proof.FaultCauses
import Bcm.Proof.PostVerdict
import Bcm.Proof.WatchdogGate
import Bcm.Proof.WatchdogClock
import Bcm.Proof.Talk
import Bcm.Proof.ProtocolChecks
import Bcm.Proof.SilIsolation

import Imperator.ForMathlib.BitField
import Imperator.ForMathlib.DeadlineOrder
import Imperator.ForMathlib.Hysteresis
import Imperator.ForMathlib.ShiftEwma
import Imperator.ForMathlib.Transition
import Imperator.Intf
import Imperator.Globals
import Imperator.TierDeadline
import Imperator.Profile
import Imperator.TaskContext
import Imperator.Reclassify
import Imperator.Enqueue
import Imperator.Overtaking
import Imperator.Running
import Imperator.BoutMeasurement
import Imperator.TaskRun
import Imperator.Classification
import Imperator.BurstCuts
import Imperator.NewFlow
import Imperator.System
import Imperator.TierCpuMask
import Imperator.LlcNonempty
import Imperator.Topology
import Imperator.Loader
import Imperator.Bypass
import Imperator.Dispatch
import Imperator.WorkConservation
import Imperator.Tick
import Imperator.SliceRestore
import Imperator.SliceCheck
import Imperator.SelectCpu
import Imperator.ContextSignals
import Imperator.Convergence
import Imperator.SpotCheck
import Imperator.BurstCredit
import Imperator.ForMathlib.BitHistory
import Imperator.OverrunHistory
import Imperator.PackedInfo
import Imperator.IrqBoost
import Imperator.Mailbox
import Imperator.EtdPairs
import Imperator.ForMathlib.LoopNest
import Imperator.PingPong
import Imperator.CoreTopology
import Imperator.InitialCredit
import Imperator.PostSleep
import Imperator.BurstHistory
import Imperator.Evidence
import Imperator.Entries
import Imperator.Counters
import Imperator.ForMathlib.SentinelMin
import Imperator.PairSelection
import Imperator.Calibration
import Imperator.EtdCost
import Imperator.BitScan
import Imperator.HybridHint
import Imperator.Upkeep
import Imperator.RecheckCadence
import Imperator.TickExits
import Imperator.TargetSelection
import Imperator.DvfsCache
import Imperator.LockHolder
import Imperator.Futex
import Imperator.Tui
import Imperator.ForMathlib.Custody
import Imperator.Machine
import Imperator.ForMathlib.QueueRank
import Imperator.TaskPlaces
import Imperator.QueuedWork
import Imperator.QueueOrder
import Imperator.QueueWait
import Imperator.CalibrationThread
import Imperator.EventLoop
import Imperator.NearestLlc
import Imperator.KickTarget
import Imperator.Telemetry
import Imperator.RoundTrips
import Imperator.ForMathlib.Unwinding
import Imperator.Isolation

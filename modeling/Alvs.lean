import Alvs.Lib.Prog
import Alvs.Lib.Runs
import Alvs.Cp.SchedMirror
import Alvs.Cp.Race
import Alvs.Lib.Local
import Alvs.Dp.Calls
import Alvs.Dp.LockDiscipline
import Alvs.Dp.FrameDisposal
import Alvs.Dp.ResetBit
import Alvs.Dp.TablesAgree
import Alvs.Dp.ScratchMemory
import Alvs.Lib.Tally
import Alvs.Dp.Overload
import Alvs.Dp.LockOut
import Alvs.Lib.Bytes
import Alvs.Dp.SyncBytes
import Alvs.Dp.SyncPacking
import Alvs.Dp.SyncRole
import Alvs.Dp.SyncReceive
import Alvs.Dp.SyncBuffers
import Alvs.Dp.SyncTwice
import Alvs.Dp.SyncDecode
import Alvs.Dp.OneServer
import Alvs.Cp.DaemonRoles
import Alvs.Cp.IndexPools
import Alvs.Cp.ErrorCodes
import Alvs.Cp.BucketOrder
import Alvs.Cp.RouteMirror
import Alvs.Cp.EntryCounts
import Alvs.Cp.StatsBase
import Alvs.Dp.WeightedRounds
import Alvs.Cp.OwnCounters
import Alvs.Dp.Hysteresis
import Alvs.Dp.SourceHash
import Alvs.Dp.RoundRobin
import Alvs.Dp.AgingTimeout
import Alvs.Cp.RequestedValues
import Alvs.Cp.Arp
import Alvs.Cp.Startup
import Alvs.Cp.ShownStats
import Alvs.Dp.ServersAlive
import Alvs.PoolQueue
import Alvs.Cp.WeightReduction
import Alvs.Cp.SqlBuffers
import Alvs.Dp.SyslogFrames
import Alvs.Dp.CpuItems
import Alvs.Dp.ReceiveLengths
import Alvs.Nw.Forwarding
import Alvs.Dp.AgingMap
import Alvs.Dp.EntryLife
import Alvs.Cp.ManagerRun
import Alvs.Lib.Progress
import Alvs.Dp.Progress
import Alvs.Dp.Destination
import Alvs.Dp.KnownPacket
import Alvs.Dp.Sessions

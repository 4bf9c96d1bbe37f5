import Mathlib.Logic.Function.Basic

/-!
# Search structures and constants

The keys and results of the NPS search structures that the control plane fills and the
data plane reads, with the flags of `ip_vs.h` and the layout of the statistics memory.

The control plane writes multi-byte fields in the byte order of the chip
(`bswap_16`, `bswap_32`) and the chip reads them back in that order, so a field is given
here as the value the chip reads. The addresses and ports that a user request carries
are swapped once by the control plane, and that swap is kept (`bswap16`, `bswap32`).
-/

namespace Alvs

/-! ## Byte order -/

/-- `bswap_16`. -/
def bswap16 (x : UInt16) : UInt16 := (x <<< 8) ||| (x >>> 8)

/-- `bswap_32`. -/
def bswap32 (x : UInt32) : UInt32 :=
  (x <<< 24) ||| ((x &&& (0xff00 : UInt32)) <<< 8) ||| ((x >>> 8) &&& (0xff00 : UInt32)) |||
    (x >>> 24)

/-! ## Sizes -/

/-- Entries of the scheduling table for each service. -/
def alvsSizeOfSchedBucket : Nat := 256

def alvsConnMaxEntries : Nat := 64 * 1024 * 1024

def alvsServicesMaxEntries : Nat := 256

def alvsConnLockElementsCount : Nat := 256 * 1024

/-- Entries that one aging event scans. -/
def alvsAgingTimerScanEntriesPerJob : Nat := 128

def alvsAgingTimerEventsPerIteration : Nat := alvsConnMaxEntries / alvsAgingTimerScanEntriesPerJob

/-- Size of the server index pool. -/
def serverIndexPoolSize : Nat := 32768

/-- Size of the service index pool. -/
def serviceIndexPoolSize : Nat := 256

/-! ## Flags -/

def ipVsDestFAvailable : UInt32 := 0x1
def ipVsDestFOverload : UInt32 := 0x2

def ipVsSvcFSchedShFallback : UInt32 := 0x8
def ipVsSvcFSchedShPort : UInt32 := 0x10

def ipVsConnFFwdMask : UInt32 := 0x7
def ipVsConnFDroute : UInt32 := 0x3
def ipVsConnFSync : UInt32 := 0x20
def ipVsConnFNooutput : UInt32 := 0x80
def ipVsConnFInactive : UInt32 := 0x100
def ipVsConnFSeqMask : UInt32 := 0x600
def ipVsConnFNoCport : UInt32 := 0x800
def ipVsConnFTemplate : UInt32 := 0x1000

def ipVsConnFBackupMask : UInt32 :=
  ipVsConnFFwdMask ||| ipVsConnFNooutput ||| ipVsConnFInactive ||| ipVsConnFSeqMask |||
    ipVsConnFNoCport ||| ipVsConnFTemplate

def ipVsConnFBackupUpdMask : UInt32 := ipVsConnFInactive ||| ipVsConnFSeqMask

/-! ## Statistics memory -/

/-- A summarized address : memory type (external or internal), memory space and element. -/
structure SumAddr where
  external : Bool
  msid : UInt8
  elementIndex : UInt32
  deriving DecidableEq

/-- The address `n` elements further. -/
def SumAddr.add (a : SumAddr) (n : UInt32) : SumAddr :=
  { a with elementIndex := a.elementIndex + n }

/-- The address 0. -/
def SumAddr.zero : SumAddr := ⟨false, 0, 0⟩

def userEmemOutOfBandMsid : UInt8 := 2
def userPostedStatsMsid : UInt8 := 3
def userOnDemandStatsMsid : UInt8 := 5

def alvsServiceStatsInPktsBytesOffset : UInt32 := 0
def alvsServiceStatsOutPktsBytesOffset : UInt32 := 2
def alvsServiceStatsConnSchedOffset : UInt32 := 4
def alvsNumOfServiceStats : UInt32 := 6

def alvsServerStatsInPktsBytesOffset : UInt32 := 0
def alvsServerStatsOutPktsBytesOffset : UInt32 := 2
def alvsServerStatsConnSchedOffset : UInt32 := 4
def alvsServerStatsInactiveConnOffset : UInt32 := 6
def alvsServerStatsActiveConnOffset : UInt32 := 7
def alvsNumOfServerStats : UInt32 := 8

def alvsServerStatsConnectionTotalOffset : UInt32 := 0
def alvsNumOfServersOnDemandStats : UInt32 := 1

def alvsNumOfAlvsErrorStats : UInt32 := 40

def ememAlvsErrorStatsPostedOffset : UInt32 := 0
def ememServiceStatsPostedOffset : UInt32 :=
  ememAlvsErrorStatsPostedOffset + alvsNumOfAlvsErrorStats
def ememServerStatsPostedOffset : UInt32 :=
  ememServiceStatsPostedOffset + 256 * alvsNumOfServiceStats
def ememServerStatsOnDemandOffset : UInt32 := 0
def ememServerFlagsOffset : UInt32 := 256 * 1024

/-- The posted statistics of the service with index `i`. -/
def serviceStatsBase (i : UInt32) : SumAddr :=
  ⟨true, userPostedStatsMsid, ememServiceStatsPostedOffset + i * alvsNumOfServiceStats⟩

/-- The posted statistics of the server with index `i`. -/
def serverStatsBase (i : UInt32) : SumAddr :=
  ⟨true, userPostedStatsMsid, ememServerStatsPostedOffset + i * alvsNumOfServerStats⟩

/-- The on-demand counters of the server with index `i`. -/
def serverOnDemandStatsBase (i : UInt32) : SumAddr :=
  ⟨true, userOnDemandStatsMsid,
    ememServerStatsOnDemandOffset + i * alvsNumOfServersOnDemandStats⟩

/-- The word of data plane flags of the server with index `i`. -/
def serverFlagsDpBase (i : UInt32) : SumAddr :=
  ⟨true, userEmemOutOfBandMsid, ememServerFlagsOffset + i⟩

/-! ## Services and scheduling -/

/-- `enum alvs_scheduler_type`. -/
inductive AlvsSchedulerType
  | roundRobin
  | weightedRoundRobin
  | leastConnection
  | weightedLeastConnection
  | destinationHash
  | sourceHash
  | lbLeastConnection
  | lbLeastConnectionWithReplication
  | shortestExpectedDelay
  | neverQueue
  | last
  deriving DecidableEq

structure ServiceClassificationKey where
  serviceAddress : UInt32
  servicePort : UInt16
  serviceProtocol : UInt16
  deriving DecidableEq

structure ServiceInfoResult where
  schedAlg : AlvsSchedulerType
  schedEntriesCount : UInt16
  serviceSchedCtr : SumAddr
  serviceStatsBase : SumAddr
  serviceFlags : UInt32
  deriving DecidableEq

/-! ## Servers -/

structure ServerInfoResult where
  serverFlags : UInt8
  serverPort : UInt16
  serverStatsBase : SumAddr
  serverIp : UInt32
  serverOnDemandStatsBase : SumAddr
  serviceStatsBase : SumAddr
  uThresh : UInt16
  lThresh : UInt16
  connFlags : UInt32
  serverFlagsDpBase : SumAddr
  deriving DecidableEq

/-- The server is available for new packets. -/
def ServerInfoResult.available (r : ServerInfoResult) : Prop :=
  r.serverFlags &&& ipVsDestFAvailable.toUInt8 ≠ 0

instance (r : ServerInfoResult) : Decidable r.available := inferInstanceAs (Decidable (_ ≠ _))

structure ServerClassificationKey where
  serverIp : UInt32
  virtualIp : UInt32
  serverPort : UInt16
  virtualPort : UInt16
  protocol : UInt16
  deriving DecidableEq

/-! ## Connections -/

/-- `IP_VS_TCP_S_NONE` of `enum alvs_tcp_conn_state`, which the entry stores in 8 bits. -/
def ipVsTcpSNone : UInt8 := 0
def ipVsTcpSEstablished : UInt8 := 1
def ipVsTcpSCloseWait : UInt8 := 7

def alvsTcpConnIterEstablished : UInt8 := 60
def alvsTcpConnIterCloseWait : UInt8 := 1

structure ConnClassificationKey where
  clientIp : UInt32
  virtualIp : UInt32
  clientPort : UInt16
  virtualPort : UInt16
  protocol : UInt16
  deriving DecidableEq

/-- A connection entry. Of a bound entry `serverIndex` is the index of its server; of an
unbound one the same word is the address of the server, and `serverPort` its port. -/
structure ConnInfoResult where
  agingBit : Bool
  deleteBit : Bool
  resetBit : Bool
  bound : Bool
  serverPort : UInt16
  serverIndex : UInt32
  connClassKey : ConnClassificationKey
  connState : UInt8
  ageIteration : UInt8
  connFlags : UInt32
  deriving DecidableEq

/-- The other member of the union with `serverIndex`. -/
abbrev ConnInfoResult.serverAddr (c : ConnInfoResult) : UInt32 := c.serverIndex

/-! ## Application info -/

/-- `ALVS_APPLICATION_INFO_INDEX`. -/
def alvsApplicationInfoIndex : UInt8 := 0

structure AppInfoResult where
  masterBit : Bool
  backupBit : Bool
  mSyncId : UInt8
  bSyncId : UInt8
  sourceIp : UInt32
  deriving DecidableEq

/-! ## FIB -/

/-- The types of a FIB result. The last one stands for all other values of its 8 bits. -/
inductive NwFibType
  | neighbor
  | gw
  | drop
  | unknown
  deriving DecidableEq

/-- Entries of the FIB TCAM. -/
def nwFibTcamMaxSize : UInt32 := 0x2000

end Alvs

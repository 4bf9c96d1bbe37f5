import Alvs.Dp.Calls

/-!
# Statistics, locks, servers and routing

The functions of `alvs_utils.h`, `alvs_server.h`, `nw_utils.h` and `nw_routing.h`. A
function that returns 0 on success and an error otherwise returns `true` on success here.
-/

namespace Alvs

open ProgLogic

/-! ## Network interfaces -/

def nwDiscardFrame : Dp Unit := dpCall .frameFree

def nwInterfaceIncCounter (counter : NwIfStats) : Dp Unit := dpCall (.nwInterfaceIncCounter counter)

def nwInterfaceLookup (logicalId : UInt32) : Dp Bool := do
  match ← dpCall (.interfaceLookup logicalId) with
  | none => pure false
  | some r =>
    modify fun m => { m with interfaceResult := r }
    pure true

def nwHostDoRoute : Dp Unit := do
  match ← dpCall .interfaceLookupHost with
  | none => nwDiscardFrame
  | some host => dpCall (.frameSendToIf host.outputChannel)

/-! ## Statistics -/

/-- The counters of `enum alvs_error_stats_offsets` that are used. -/
inductive AlvsErrorStats
  | unsupportedRoutingAlgo
  | cantUpdateConnectionState
  | connInfoLkupFail
  | connClassAllocFail
  | connIndexAllocFail
  | schedulingFail
  | serverInfoLkupFail
  | serverIsUnavailable
  | serviceInfoLookup
  | unsupportedSchedAlgo
  | cantMarkDelete
  | destServerIsNotAvail
  | sendFrameFail
  | connMarkToDelete
  | serviceClassLookup
  | unsupportedProtocol
  | noActiveServers
  | createConnMemError
  | stateSyncLookupFail
  | stateSyncBackupDown
  | stateSyncBadHeaderSize
  | stateSyncBackupNotMySyncid
  | stateSyncBadBuffer
  | stateSyncDecodeConn
  | stateSyncBadMessageVersion
  deriving DecidableEq

def AlvsErrorStats.offset : AlvsErrorStats → UInt32
  | unsupportedRoutingAlgo => 0
  | cantUpdateConnectionState => 2
  | connInfoLkupFail => 3
  | connClassAllocFail => 4
  | connIndexAllocFail => 6
  | schedulingFail => 8
  | serverInfoLkupFail => 9
  | serverIsUnavailable => 10
  | serviceInfoLookup => 13
  | unsupportedSchedAlgo => 14
  | cantMarkDelete => 15
  | destServerIsNotAvail => 16
  | sendFrameFail => 17
  | connMarkToDelete => 18
  | serviceClassLookup => 19
  | unsupportedProtocol => 20
  | noActiveServers => 21
  | createConnMemError => 22
  | stateSyncLookupFail => 24
  | stateSyncBackupDown => 25
  | stateSyncBadHeaderSize => 26
  | stateSyncBackupNotMySyncid => 27
  | stateSyncBadBuffer => 28
  | stateSyncDecodeConn => 29
  | stateSyncBadMessageVersion => 30

/-- The address of an error counter. -/
def alvsErrorStatsAddr (errorId : AlvsErrorStats) : SumAddr :=
  ⟨true, userPostedStatsMsid, ememAlvsErrorStatsPostedOffset + errorId.offset⟩

def alvsUpdateIncomingTrafficStats : Dp Unit := do
  let m ← get
  dpCall (.dualAddPostedCtr
    (m.serverInfoResult.serviceStatsBase.add alvsServiceStatsInPktsBytesOffset) 1
    m.frameLength.toNat)
  dpCall (.dualAddPostedCtr
    (m.serverInfoResult.serverStatsBase.add alvsServerStatsInPktsBytesOffset) 1
    m.frameLength.toNat)

def alvsUpdateConnectionStatistics (schedConn activeConn inactiveConn : Int) : Dp Unit := do
  let info := (← get).serverInfoResult
  dpCall (.addPostedCtr (info.serviceStatsBase.add alvsServiceStatsConnSchedOffset) schedConn)
  dpCall (.addPostedCtr (info.serverStatsBase.add alvsServerStatsActiveConnOffset) activeConn)
  dpCall (.addPostedCtr (info.serverStatsBase.add alvsServerStatsInactiveConnOffset) inactiveConn)
  dpCall (.addPostedCtr (info.serverStatsBase.add alvsServerStatsConnSchedOffset) schedConn)

def alvsUpdateDiscardStatistics (errorId : AlvsErrorStats) : Dp Unit :=
  dpCall (.addPostedCtr (alvsErrorStatsAddr errorId) 1)

def alvsDiscardFrame : Dp Unit := dpCall .frameFree

def alvsDiscardAndStats (errorId : AlvsErrorStats) : Dp Unit := do
  alvsUpdateDiscardStatistics errorId
  alvsDiscardFrame

/-! ## Locks and state iterations -/

/-- Lock the connection of `conn_class_key` and return the hash value of the key. -/
def alvsLockConnection : Dp UInt32 := do
  let m ← get
  dpCall (.lockConnection m.connClassKey)

def alvsUnlockConnection (hashValue : UInt32) : Dp Unit := dpCall (.unlockConnection hashValue)

/-- `ezdp_mod` : the 16 bits of `x` from bit `offset` on, modulo `y`. -/
def ezdpMod (x y offset : UInt32) : UInt32 := (x >>> offset &&& 0xffff) % y

def alvsUtilGetConnIterations (alvsState : UInt8) : UInt8 :=
  if alvsState = ipVsTcpSEstablished then alvsTcpConnIterEstablished
  else if alvsState = ipVsTcpSCloseWait then alvsTcpConnIterCloseWait
  else 1

/-- The iteration number that is stored in, and compared with, an entry in a state. -/
def connAgeIteration (iterationNum connState : UInt8) : UInt8 :=
  (ezdpMod iterationNum.toUInt32 (alvsUtilGetConnIterations connState).toUInt32 0).toUInt8

/-! ## Servers -/

/-- `alvs_server_sched_lookup`, telling a missing entry (`ENOENT`) from other errors. -/
def alvsServerSchedLookup (schedulingIndex : UInt16) : Dp (LookupRes Unit) := do
  match ← dpCall (.schedInfoLookup schedulingIndex) with
  | .found serverIndex =>
    modify fun m => { m with schedServerIndex := serverIndex }
    pure (.found ())
  | .notFound => pure .notFound
  | .error => pure .error

def alvsServerInfoLookup (serverIndex : UInt32) : Dp Bool := do
  match ← dpCall (.serverInfoLookup serverIndex) with
  | none => pure false
  | some r =>
    modify fun m => { m with serverInfoResult := r }
    pure true

/-- The address of CONNECTION_TOTAL. -/
def ServerInfoResult.connTotal (info : ServerInfoResult) : SumAddr :=
  info.serverOnDemandStatsBase.add alvsServerStatsConnectionTotalOffset

/-- The flags it returns have `IP_VS_DEST_F_OVERLOAD` when the connection is refused. The
index is only logged. -/
def alvsServerOverloadOnCreateConn (_serverIndex : UInt16) : Dp UInt32 := do
  let info := (← get).serverInfoResult
  let connTotal := info.serverOnDemandStatsBase.add alvsServerStatsConnectionTotalOffset
  let serverFlags : UInt32 ← dpCall (.atomicRead32 info.serverFlagsDpBase)
  let counterWorkArea : UInt64 ← dpCall (.readAndIncSingleCtr connTotal)
  let counter := counterWorkArea + 1
  if info.uThresh = 0 then
    pure 0
  else if counter = info.uThresh.toUInt64 then
    if serverFlags &&& ipVsDestFOverload ≠ 0 then
      dpCall (.decSingleCtr connTotal)
      pure serverFlags
    else
      dpCall (.atomicOr32 info.serverFlagsDpBase ipVsDestFOverload)
      pure 0
  else if info.uThresh.toUInt64 < counter then
    dpCall (.atomicOr32 info.serverFlagsDpBase ipVsDestFOverload)
    dpCall (.decSingleCtr connTotal)
    pure ipVsDestFOverload
  else if info.lThresh ≠ 0 ∧ counter ≤ info.lThresh.toUInt64 then
    dpCall (.atomicAnd32 info.serverFlagsDpBase (~~~ipVsDestFOverload))
    pure 0
  else if serverFlags &&& ipVsDestFOverload ≠ 0 then
    dpCall (.decSingleCtr connTotal)
    pure serverFlags
  else
    pure serverFlags

/-- The index is only logged : the counter and flags are those of `server_info_result`. -/
def alvsServerOverloadOnDeleteConn (_serverIndex : UInt16) : Dp Unit := do
  let info := (← get).serverInfoResult
  let connTotal := info.serverOnDemandStatsBase.add alvsServerStatsConnectionTotalOffset
  let counterWorkArea : UInt64 ← dpCall (.readAndDecSingleCtr connTotal)
  let counter := counterWorkArea - 1
  if info.uThresh = 0 then
    dpCall (.atomicAnd32 info.serverFlagsDpBase (~~~ipVsDestFOverload))
  else if info.lThresh ≠ 0 then
    if counter < info.lThresh.toUInt64 then
      dpCall (.atomicAnd32 info.serverFlagsDpBase (~~~ipVsDestFOverload))
  else if counter * 4 < info.uThresh.toUInt64 * 3 then
    dpCall (.atomicAnd32 info.serverFlagsDpBase (~~~ipVsDestFOverload))

def alvsFindServerIndex (serverIp virtualIp : UInt32) (serverPort virtualPort protocol : UInt16) :
    Dp (Option UInt32) :=
  dpCall (.serverClassLookup .findServerIndex
    ⟨serverIp, virtualIp, serverPort, virtualPort, protocol⟩)

/-! ## Routing -/

def userBaseLogicalId : UInt32 := 0

def nwSendFrameToNetwork (portId : UInt32) : Dp Unit := do
  let hashValue : UInt32 ← dpCall .hashDestMac
  if ← nwInterfaceLookup (portId + hashValue) then
    let m ← get
    dpCall (.frameSendToIf m.interfaceResult.outputChannel)
  else
    alvsDiscardAndStats .sendFrameFail

def nwArpProcessing (destIp : UInt32) : Dp Unit := do
  match ← dpCall (.arpLookup destIp) with
  | some baseLogicalId =>
    dpCall .frameStoreBuf
    nwSendFrameToNetwork baseLogicalId.toUInt32
  | none =>
    nwInterfaceIncCounter .failArpLookup
    nwDiscardFrame

/-- The address to send to, or 0. -/
def nwFibProcessing (destIp : UInt32) : Dp UInt32 := do
  match ← dpCall (.fibLookup destIp) with
  | none =>
    nwInterfaceIncCounter .failFibLookup
    pure 0
  | some (.neighbor, _) => pure destIp
  | some (.gw, resDestIp) => pure resDestIp
  | some (.drop, _) =>
    nwInterfaceIncCounter .rejectByFib
    pure 0
  | some (.unknown, _) =>
    nwInterfaceIncCounter .unknownFibResult
    pure 0

def nwDoRoute (destIp : UInt32) : Dp Unit := do
  let fibDestIp ← nwFibProcessing destIp
  if fibDestIp = 0 then
    nwDiscardFrame
  else
    nwArpProcessing fibDestIp

end Alvs

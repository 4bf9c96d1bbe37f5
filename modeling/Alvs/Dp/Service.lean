import Alvs.Dp.Conn

/-!
# Scheduling a new connection

The functions of `alvs_sched.h` and `alvs_service.h` : the choice of a server by source
hash or round robin, and the creation of the connection under its lock.
-/

namespace Alvs

open ProgLogic

/-! ## Choosing a server -/

/-- `enum alvs_sched_server_result`. -/
inductive AlvsSchedServerResult
  | success
  | failed
  | empty
  | unavailable
  deriving DecidableEq

/-- `alvs_sched_service_info_lookup` and `alvs_service_info_lookup`. -/
def alvsServiceInfoLookup (serviceIndex : UInt8) : Dp Bool := do
  match ← dpCall (.serviceInfoLookup serviceIndex) with
  | none => pure false
  | some r =>
    modify fun m => { m with serviceInfoResult := r }
    pure true

def alvsSchedHandleNoActiveServers : Dp Unit := alvsDiscardAndStats .noActiveServers

def alvsSchedCheckActiveServers : Dp Bool := do
  let m ← get
  if m.serviceInfoResult.schedEntriesCount = 0 then
    alvsSchedHandleNoActiveServers
    pure false
  else
    pure true

def alvsSchedShGetSchedulingIndex (sip : UInt32) (sport : UInt16) : Dp UInt32 := do
  let sipHash : UInt32 ← dpCall (.hash sip 0 32 0)
  let portHash : UInt32 ← dpCall (.hash sport.toUInt32 0 32 1)
  dpCall (.hash sipHash portHash 8 3)

/-- The index in the scheduling table of an entry of a service. -/
def schedulingIndex (serviceIndex : UInt8) (entry : UInt32) : UInt16 :=
  (serviceIndex.toUInt32 * alvsSizeOfSchedBucket.toUInt32 + entry).toUInt16

def alvsSchedGetServerInfo (schedulingIndex : UInt16) : Dp AlvsSchedServerResult := do
  match ← alvsServerSchedLookup schedulingIndex with
  | .found _ =>
    let serverIndex := (← get).schedServerIndex
    if ← alvsServerInfoLookup serverIndex then
      let flags ← alvsServerOverloadOnCreateConn serverIndex.toUInt16
      if flags &&& ipVsDestFOverload ≠ 0 then
        pure .unavailable
      else
        pure .success
    else
      alvsDiscardAndStats .serverInfoLkupFail
      pure .failed
  | .notFound => pure .empty
  | .error =>
    alvsDiscardAndStats .schedulingFail
    pure .failed

/-- Try the entries at the given offsets from the hash until one is not unavailable. -/
def alvsSchedShFallback (serviceIndex : UInt8) (finalHash : UInt32) :
    List Nat → Dp AlvsSchedServerResult
  | [] => pure .unavailable
  | offset :: offsets => do
    let tmpOffset := (offset.toUInt32 + finalHash) &&& (alvsSizeOfSchedBucket - 1).toUInt32
    let res ← alvsSchedGetServerInfo (schedulingIndex serviceIndex tmpOffset)
    if res = .unavailable then
      alvsSchedShFallback serviceIndex finalHash offsets
    else
      pure res

def alvsSchedShScheduleConnection (serviceIndex : UInt8) (sip : UInt32) (sport : UInt16) :
    Dp Bool := do
  let serviceFlags := (← get).serviceInfoResult.serviceFlags
  let sport := if serviceFlags &&& ipVsSvcFSchedShPort ≠ 0 then sport else 0
  let finalHash ← alvsSchedShGetSchedulingIndex sip sport
  let first ← alvsSchedGetServerInfo (schedulingIndex serviceIndex finalHash)
  let res ← (if first = .unavailable ∧ serviceFlags &&& ipVsSvcFSchedShFallback ≠ 0 then
      alvsSchedShFallback serviceIndex finalHash (List.range alvsSizeOfSchedBucket)
    else pure first)
  match res with
  | .success => pure true
  | .unavailable =>
    alvsDiscardAndStats .serverIsUnavailable
    pure false
  | .empty =>
    alvsSchedHandleNoActiveServers
    pure false
  | .failed => pure false

/-- `ezdp_count_bits` of 16 bits. -/
def ezdpCountBits (x : UInt16) : Nat := ((List.range 16).filter fun i => x.toNat.testBit i).length

/-- The entry that a scheduling counter selects. -/
def rrSchedEntry (schedCount : UInt32) (entries : UInt16) : UInt32 :=
  if ezdpCountBits entries = 1 then schedCount &&& (entries.toUInt32 - 1)
  else ezdpMod (ezdpMod schedCount entries.toUInt32 0 + ezdpMod schedCount entries.toUInt32 16)
    entries.toUInt32 0

def alvsSchedRrRetries : Nat := 10

/-- The loop of the round robin algorithm; `none` when it goes to `fail_out`. -/
def alvsSchedRrLoop (serviceIndex : UInt8) : Nat → UInt32 → Dp (Option AlvsSchedServerResult)
  | 0, _ => pure (some .empty)
  | retries + 1, schedCount => do
    let entry := rrSchedEntry schedCount (← get).serviceInfoResult.schedEntriesCount
    let res ← alvsSchedGetServerInfo (schedulingIndex serviceIndex entry)
    if res = .empty then
      if ← alvsServiceInfoLookup serviceIndex then
        if ← alvsSchedCheckActiveServers then
          alvsSchedRrLoop serviceIndex retries entry
        else
          pure none
      else
        alvsDiscardAndStats .serviceInfoLookup
        pure none
    else
      pure (some res)

def alvsSchedRrScheduleConnection (serviceIndex : UInt8) : Dp Bool := do
  let schedCtr := (← get).serviceInfoResult.serviceSchedCtr
  let schedCount : UInt32 ← dpCall (.atomicReadAndInc32 schedCtr)
  match ← alvsSchedRrLoop serviceIndex alvsSchedRrRetries schedCount with
  | some .success => pure true
  | some .unavailable =>
    alvsDiscardAndStats .serverIsUnavailable
    pure false
  | some .empty =>
    alvsDiscardAndStats .schedulingFail
    pure false
  | some .failed => pure false
  | none => pure false

/-! ## Creating the connection -/

/-- Choose a server by the algorithm of the service. -/
def alvsScheduleConnection (serviceIndex : UInt8) (ipHdr : IpHdr) (tcpHdr : TcpHdr) : Dp Bool := do
  let m ← get
  if m.serviceInfoResult.schedAlg = .sourceHash then
    alvsSchedShScheduleConnection serviceIndex ipHdr.saddr tcpHdr.source
  else if m.serviceInfoResult.schedAlg = .roundRobin then
    alvsSchedRrScheduleConnection serviceIndex
  else if m.serviceInfoResult.schedAlg = .weightedRoundRobin then
    alvsSchedRrScheduleConnection serviceIndex
  else
    alvsDiscardAndStats .unsupportedSchedAlgo
    pure false

/-- Create the connection with the server that was chosen. -/
def alvsTcpCreateConnection (tcpHdr : TcpHdr) : Dp AlvsServiceOutputResult := do
  let m ← get
  let result ← alvsConnCreateNewEntry true m.schedServerIndex 0
    (if tcpHdr.fin || tcpHdr.rst then ipVsTcpSCloseWait else ipVsTcpSEstablished).toUInt16
    m.serverInfoResult.connFlags tcpHdr.rst
  modify fun m =>
    { m with connSyncState :=
      { m.connSyncState with
        connSyncStatus := if result = .success then .need else m.connSyncState.connSyncStatus } }
  pure result

/-- What is done under the lock : the connection is created unless it exists by now. -/
def alvsTcpScheduleLocked (serviceIndex : UInt8) (ipHdr : IpHdr) (tcpHdr : TcpHdr) :
    Dp AlvsServiceOutputResult := do
  let key := (← get).connClassKey
  match ← dpCall (.connClassLookup .schedule key) with
  | .found connIndex =>
    modify fun m => { m with connResultIndex := connIndex }
    pure .retry
  | .error =>
    alvsDiscardAndStats .createConnMemError
    pure .ignore
  | .notFound =>
    if ← alvsScheduleConnection serviceIndex ipHdr tcpHdr then
      alvsTcpCreateConnection tcpHdr
    else
      pure .ignore

def alvsTcpScheduleNewConnection (serviceIndex : UInt8) (ipHdr : IpHdr) (tcpHdr : TcpHdr) :
    Dp AlvsServiceOutputResult := do
  if ← alvsSchedCheckActiveServers then
    let hashValue ← alvsLockConnection
    let result ← alvsTcpScheduleLocked serviceIndex ipHdr tcpHdr
    alvsUnlockConnection hashValue
    pure result
  else
    pure .ignore

def ipprotoTcp : UInt8 := 6
def ipprotoUdp : UInt8 := 17

def alvsServiceDataPath (serviceIndex : UInt8) (ipHdr : IpHdr) (tcpHdr : TcpHdr) :
    Dp AlvsServiceOutputResult := do
  if ← alvsServiceInfoLookup serviceIndex then
    if ipHdr.protocol = ipprotoTcp then
      alvsTcpScheduleNewConnection serviceIndex ipHdr tcpHdr
    else
      alvsDiscardAndStats .unsupportedProtocol
      pure .ignore
  else
    alvsDiscardAndStats .serviceInfoLookup
    pure .ignore

end Alvs

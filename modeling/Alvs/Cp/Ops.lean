import Alvs.Cp.Sched

/-!
# The operations of the control plane

`alvs_db_add_service`, `alvs_db_modify_service`, `alvs_db_delete_service`,
`alvs_db_add_server`, `alvs_db_modify_server`, `alvs_db_delete_server`, `alvs_db_clear`
and the body of the aging thread `server_db_aging`, each a program over the calls of
`CpCall` with the branches of the source.
-/

namespace Alvs

open ProgLogic

/-! ## Requests -/

/-- `struct ip_vs_service_user`, with the address and port in network byte order. -/
structure IpVsServiceUser where
  protocol : UInt16
  addr : UInt32
  port : UInt16
  schedName : String
  flags : UInt32

/-- `struct ip_vs_dest_user`, with the address and port in network byte order. -/
structure IpVsDestUser where
  addr : UInt32
  port : UInt16
  connFlags : UInt32
  weight : Int32
  uThreshold : UInt32
  lThreshold : UInt32

/-- The service a request names. -/
def IpVsServiceUser.tuple (u : IpVsServiceUser) : ServiceTuple :=
  ⟨bswap32 u.addr, bswap16 u.port, u.protocol⟩

/-- The address of the server a request names. -/
def IpVsDestUser.ip (d : IpVsDestUser) : UInt32 := bswap32 d.addr

/-- The port of the server a request names. -/
def IpVsDestUser.cpPort (d : IpVsDestUser) : UInt16 := bswap16 d.port

/-- The weight that is stored : the 16 low bits of the `int` of the request. -/
def IpVsDestUser.storedWeight (d : IpVsDestUser) : UInt16 := d.weight.toUInt32.toUInt16

def getSchedAlg (schedName : String) : AlvsSchedulerType :=
  if schedName = "rr" then .roundRobin
  else if schedName = "wrr" then .weightedRoundRobin
  else if schedName = "lc" then .leastConnection
  else if schedName = "wlc" then .weightedLeastConnection
  else if schedName = "dh" then .destinationHash
  else if schedName = "sh" then .sourceHash
  else if schedName = "lblc" then .lbLeastConnection
  else if schedName = "lblcr" then .lbLeastConnectionWithReplication
  else if schedName = "sed" then .shortestExpectedDelay
  else if schedName = "nq" then .neverQueue
  else .last

/-- Only TCP is supported. -/
def supportedProtocol (protocol : UInt16) : Bool := protocol = 6

def supportedSchedAlg (schedAlg : AlvsSchedulerType) : Bool :=
  schedAlg = .sourceHash || schedAlg = .roundRobin || schedAlg = .weightedRoundRobin

def supportedRoutingAlg (connFlags : UInt32) : Bool :=
  connFlags &&& ipVsConnFFwdMask = ipVsConnFDroute

/-! ## Keys and results of the search structures -/

def buildNpsServiceInfoKey (cpService : DbService) : UInt8 := cpService.npsIndex.toUInt8

/-- The scheduling counter of a service is the element of its index in internal memory. -/
def buildNpsServiceInfoResult (cpService : DbService) : ServiceInfoResult where
  schedAlg := cpService.schedAlg
  schedEntriesCount := cpService.schedEntriesCount
  serviceFlags := cpService.flags
  serviceStatsBase := cpService.statsBase
  serviceSchedCtr := ⟨false, 0, cpService.npsIndex⟩

def buildNpsServiceClassificationKey (t : ServiceTuple) : ServiceClassificationKey :=
  ⟨t.ip, t.port, t.protocol⟩

def buildNpsServiceClassificationResult (cpService : DbService) : UInt8 :=
  cpService.npsIndex.toUInt8

def buildNpsServerInfoKey (cpServer : DbServer) : UInt32 := cpServer.npsIndex

/-- The flags keep 8 bits, the thresholds 16. -/
def buildNpsServerInfoResult (cpServer : DbServer) : ServerInfoResult where
  connFlags := cpServer.connFlags
  serverFlags := cpServer.serverFlags.toUInt8
  serverIp := cpServer.ip
  serverPort := cpServer.port
  serverStatsBase := cpServer.serverStatsBase
  serviceStatsBase := cpServer.serviceStatsBase
  serverOnDemandStatsBase := cpServer.serverOnDemandStatsBase
  serverFlagsDpBase := cpServer.serverFlagsDpBase
  uThresh := cpServer.uThresh.toUInt16
  lThresh := cpServer.lThresh.toUInt16

/-- The info entry of a service. -/
def serviceInfoEntry (cpService : DbService) : SearchEntry :=
  .serviceInfo (buildNpsServiceInfoKey cpService) (buildNpsServiceInfoResult cpService)

/-- The info entry of a server. -/
def serverInfoEntry (cpServer : DbServer) : SearchEntry :=
  .serverInfo (buildNpsServerInfoKey cpServer) (buildNpsServerInfoResult cpServer)

def buildNpsServerClassificationKey (t : ServiceTuple) (ip : UInt32) (port : UInt16) :
    ServerClassificationKey :=
  ⟨ip, t.ip, port, t.port, t.protocol⟩

/-! ## Statistics -/

def alvsDbCleanServiceStats (serviceIndex : UInt32) : CpProg AlvsDbRc := do
  if (← infraClearPostedCounters (serviceStatsBase serviceIndex) alvsNumOfServiceStats) = false then
    return .npsError
  return .ok

def alvsDbCleanServerStats (serverIndex : UInt32) : CpProg AlvsDbRc := do
  if (← infraClearLongCounters (serverOnDemandStatsBase serverIndex)
      alvsNumOfServersOnDemandStats) = false then
    return .npsError
  if (← infraClearPostedCounters (serverStatsBase serverIndex) alvsNumOfServerStats) = false then
    return .npsError
  return .ok

def alvsClearOverloadedFlagOfServer (cpServer : DbServer) : CpProg AlvsDbRc := do
  if (← clearServerFlagsWord cpServer.serverFlagsDpBase) = false then
    return .internalError
  return .ok

/-- A read that fails returns an error and no count. -/
def alvsDbGetNumConnTotal (serverIndex : UInt32) : CpProg (AlvsDbRc × Option UInt64) := do
  let some connTotal ← infraGetLongCounter
      ((serverOnDemandStatsBase serverIndex).add alvsServerStatsConnectionTotalOffset)
    | return (.npsError, none)
  return (.ok, some connTotal)

/-! ## Services -/

/-- The row of a new service. -/
def newService (u : IpVsServiceUser) (npsIndex : UInt32) : DbService where
  tuple := u.tuple
  npsIndex := npsIndex
  flags := u.flags
  schedAlg := getSchedAlg u.schedName
  statsBase := serviceStatsBase npsIndex
  schedEntriesCount := 0
  serviceStats := .zero

def alvsDbAddService (ipVsService : IpVsServiceUser) : CpProg AlvsDbRc := do
  if supportedProtocol ipVsService.protocol = false then
    return .notSupported
  if supportedSchedAlg (getSchedAlg ipVsService.schedName) = false then
    return .notSupported
  match ← internalDbGetService ipVsService.tuple with
  | some (some _) => return .failure
  | none => return .internalError
  | some none =>
    let some npsIndex ← serviceIndexPoolAlloc
      | return .notSupported
    let cpService := newService ipVsService npsIndex
    if (← alvsDbCleanServiceStats npsIndex) = .internalError then
      serviceIndexPoolRelease npsIndex
      return .internalError
    if (← internalDbAddService cpService) = false then
      serviceIndexPoolRelease npsIndex
      return .internalError
    if (← infraAddEntry (serviceInfoEntry cpService)) = false then
      serviceIndexPoolRelease npsIndex
      return .npsError
    if (← infraAddEntry (.serviceClassification (buildNpsServiceClassificationKey cpService.tuple)
        (buildNpsServiceClassificationResult cpService))) = false then
      serviceIndexPoolRelease npsIndex
      return .npsError
    return .ok

/-- The row of a service with the values of a request. -/
def modifiedRow (prev : DbService) (u : IpVsServiceUser) : DbService :=
  { prev with schedAlg := getSchedAlg u.schedName, flags := u.flags }

def alvsDbModifyService (ipVsService : IpVsServiceUser) : CpProg AlvsDbRc := do
  if supportedSchedAlg (getSchedAlg ipVsService.schedName) = false then
    return .notSupported
  match ← internalDbGetService ipVsService.tuple with
  | some none => return .failure
  | none => return .internalError
  | some (some prev) =>
    let mut cpService := modifiedRow prev ipVsService
    if prev.schedAlg ≠ cpService.schedAlg then
      let (rc, recalculated) ← alvsDbRecalculateSchedulingInfo cpService
      cpService := recalculated
      if rc ≠ .ok then
        return rc
    if (← internalDbModifyService cpService) = false then
      return .internalError
    if (← infraModifyEntry (serviceInfoEntry cpService)) = false then
      return .npsError
    return .ok

/-- `server_flags &= ~IP_VS_DEST_F_AVAILABLE`. -/
def DbServer.unavailable (server : DbServer) : DbServer :=
  { server with serverFlags := server.serverFlags &&& ~~~ipVsDestFAvailable }

/-- The loop that deactivates the servers of a deleted service. The source never moves
on to the next node, so every round rewrites the entry of the first server. -/
def deactivateServers (serverList : List DbServer) : Nat → CpProg AlvsDbRc
  | 0 => pure .ok
  | serverCount + 1 => do
    match serverList.head? with
    | none => deactivateServers serverList serverCount
    | some server =>
      let server := server.unavailable
      if (← infraModifyEntry (serverInfoEntry server)) = false then
        return .npsError
      deactivateServers serverList serverCount

/-- `uninit` is what the stack holds where the source leaves `server_count` unset, which it
does when the count fails. -/
def alvsDbDeleteService (ipVsService : IpVsServiceUser) (uninit : Nat) : CpProg AlvsDbRc := do
  match ← internalDbGetService ipVsService.tuple with
  | some none => return .failure
  | none => return .internalError
  | some (some cpService) =>
    let serverCount := (← internalDbGetServerCount cpService.tuple ⟨false, true⟩).getD uninit
    let some serverList ← internalDbGetServerList cpService.tuple ⟨false, true⟩
      | return .internalError
    if (← internalDbDeleteService cpService.tuple) = false then
      return .internalError
    serviceIndexPoolRelease cpService.npsIndex
    if (← infraDeleteEntry (.serviceClassification
        (buildNpsServiceClassificationKey cpService.tuple))) = false then
      return .npsError
    if (← infraDeleteEntry (.serviceInfo (buildNpsServiceInfoKey cpService))) = false then
      return .npsError
    let rc ← deactivateServers serverList serverCount
    if rc ≠ .ok then
      return rc
    let (rc, _) ← alvsDbRecalculateSchedulingInfo cpService
    return rc

/-! ## Servers -/

/-- The row of a new server. -/
def newServer (cpService : DbService) (d : IpVsDestUser) (npsIndex : UInt32) : DbServer where
  ip := d.ip
  port := d.cpPort
  weight := d.storedWeight
  active := true
  npsIndex := npsIndex
  connFlags := d.connFlags
  serverFlags := ipVsDestFAvailable
  uThresh := d.uThreshold
  lThresh := d.lThreshold
  serverStatsBase := serverStatsBase npsIndex
  serviceStatsBase := cpService.statsBase
  serverOnDemandStatsBase := serverOnDemandStatsBase npsIndex
  serverFlagsDpBase := serverFlagsDpBase npsIndex
  serverStats := .zero

/-- The server of an inactive row with the values of the request. -/
def reactivatedServer (server : DbServer) (d : IpVsDestUser) : DbServer :=
  { server with
    serverFlags := server.serverFlags ||| ipVsDestFAvailable
    connFlags := d.connFlags
    weight := d.storedWeight
    uThresh := d.uThreshold
    lThresh := d.lThreshold }

/-- Recalculate the scheduling entries of a service and write its info entry. -/
def recalculateAndModifyServiceInfo (cpService : DbService) (modifyDb : Bool) :
    CpProg AlvsDbRc := do
  let (rc, cpService) ← alvsDbRecalculateSchedulingInfo cpService
  if rc ≠ .ok then
    return rc
  if modifyDb then
    if (← internalDbModifyService cpService) = false then
      return .internalError
  if (← infraModifyEntry (serviceInfoEntry cpService)) = false then
    return .npsError
  return .ok

/-- The part of `alvs_db_add_server` that makes the server's row and info entry : a row
that is inactive is activated again, a server without a row gets a new index. -/
def addServerRow (cpService : DbService) (d : IpVsDestUser) :
    CpProg (Except AlvsDbRc DbServer) := do
  match ← internalDbGetServer cpService.tuple d.ip d.cpPort with
  | some (some row) =>
    if row.active then
      return .error .failure
    let cpServer := reactivatedServer row d
    if (← internalDbActivateServer cpService.tuple cpServer) = false then
      return .error .internalError
    if (← infraModifyEntry (serverInfoEntry cpServer)) = false then
      return .error .npsError
    return .ok cpServer
  | none => return .error .internalError
  | some none =>
    let some npsIndex ← serverIndexPoolAlloc
      | return .error .notSupported
    let cpServer := newServer cpService d npsIndex
    if (← alvsDbCleanServerStats npsIndex) = .internalError then
      serverIndexPoolRelease npsIndex
      return .error .internalError
    if (← alvsClearOverloadedFlagOfServer cpServer) = .internalError then
      serverIndexPoolRelease npsIndex
      return .error .internalError
    if (← internalDbAddServer cpService.tuple cpServer) = false then
      serverIndexPoolRelease npsIndex
      return .error .internalError
    if (← infraModifyEntry (serverInfoEntry cpServer)) = false then
      serverIndexPoolRelease npsIndex
      return .error .npsError
    return .ok cpServer

def alvsDbAddServer (ipVsService : IpVsServiceUser) (ipVsDest : IpVsDestUser) :
    CpProg AlvsDbRc := do
  if supportedRoutingAlg ipVsDest.connFlags = false then
    return .notSupported
  if ipVsDest.lThreshold > ipVsDest.uThreshold then
    return .notSupported
  match ← internalDbGetService ipVsService.tuple with
  | some none => return .failure
  | none => return .internalError
  | some (some cpService) =>
    let serverCount := (← internalDbGetServerCount cpService.tuple ⟨false, true⟩).getD 0
    if serverCount = alvsSizeOfSchedBucket then
      return .failure
    match ← addServerRow cpService ipVsDest with
    | .error rc => return rc
    | .ok cpServer =>
      if ipVsDest.weight > 0 then
        let rc ← recalculateAndModifyServiceInfo cpService true
        if rc ≠ .ok then
          return rc
      if (← infraAddEntry (.serverClassification
          (buildNpsServerClassificationKey cpService.tuple cpServer.ip cpServer.port)
          cpServer.npsIndex)) = false then
        return .npsError
      return .ok

/-- The server of a row with the values of the request. -/
def modifiedServer (server : DbServer) (d : IpVsDestUser) : DbServer :=
  { server with
    connFlags := d.connFlags
    weight := d.storedWeight
    uThresh := d.uThreshold
    lThresh := d.lThreshold }

/-- The previous weight is kept in 8 bits. -/
def alvsDbModifyServer (ipVsService : IpVsServiceUser) (ipVsDest : IpVsDestUser) :
    CpProg AlvsDbRc := do
  if supportedRoutingAlg ipVsDest.connFlags = false then
    return .notSupported
  if ipVsDest.lThreshold > ipVsDest.uThreshold then
    return .notSupported
  match ← internalDbGetService ipVsService.tuple with
  | some none => return .failure
  | none => return .internalError
  | some (some cpService) =>
    match ← internalDbGetServer cpService.tuple ipVsDest.ip ipVsDest.cpPort with
    | some none => return .failure
    | none => return .internalError
    | some (some row) =>
      if row.active = false then
        return .failure
      let prevWeight := row.weight.toUInt8
      if ipVsDest.uThreshold = 0 ∨ ipVsDest.uThreshold > row.uThresh then
        if (← alvsClearOverloadedFlagOfServer row) = .internalError then
          return .internalError
      let cpServer := modifiedServer row ipVsDest
      if (← internalDbModifyServer cpService.tuple cpServer) = false then
        return .internalError
      if cpServer.weight ≠ prevWeight.toUInt16 then
        let rc ← recalculateAndModifyServiceInfo cpService false
        if rc ≠ .ok then
          return rc
      if (← infraModifyEntry (serverInfoEntry cpServer)) = false then
        return .npsError
      return .ok

def alvsDbDeleteServer (ipVsService : IpVsServiceUser) (ipVsDest : IpVsDestUser) :
    CpProg AlvsDbRc := do
  match ← internalDbGetService ipVsService.tuple with
  | some none => return .failure
  | none => return .internalError
  | some (some cpService) =>
    match ← internalDbGetServer cpService.tuple ipVsDest.ip ipVsDest.cpPort with
    | some none => return .failure
    | none => return .internalError
    | some (some row) =>
      if row.active = false then
        return .failure
      let cpServer := row.unavailable
      if (← internalDbDeactivateServer cpService.tuple cpServer.ip cpServer.port) = false then
        return .internalError
      if cpServer.weight > 0 then
        let rc ← recalculateAndModifyServiceInfo cpService false
        if rc ≠ .ok then
          return rc
      if (← infraModifyEntry (serverInfoEntry cpServer)) = false then
        return .npsError
      if (← infraDeleteEntry (.serverClassification
          (buildNpsServerClassificationKey cpService.tuple cpServer.ip cpServer.port))) = false then
        return .npsError
      return .ok

/-! ## Clear -/

/-- Delete the classification entries of `serviceCount` services of the cyclic list, from
node `ind`. -/
def deleteServiceClassifications (serviceList : List DbService) :
    List Nat → CpProg AlvsDbRc
  | [] => pure .ok
  | ind :: inds => do
    match cyclicNode serviceList ind with
    | none => deleteServiceClassifications serviceList inds
    | some service =>
      if (← infraDeleteEntry (.serviceClassification
          (buildNpsServiceClassificationKey service.tuple))) = false then
        return .npsError
      deleteServiceClassifications serviceList inds

def alvsDbClear : CpProg AlvsDbRc := do
  let some serviceCount ← internalDbGetServiceCount
    | return .internalError
  let some serviceList ← internalDbGetServiceList
    | return .internalError
  let rc ← deleteServiceClassifications serviceList (List.range serviceCount)
  if rc ≠ .ok then
    return rc
  if (← infraDeleteAllEntries .serviceInfo) = false then
    return .npsError
  if (← infraDeleteAllEntries .schedInfo) = false then
    return .npsError
  if (← internalDbClearAll) = false then
    return .internalError
  serviceIndexPoolRewind
  return .ok

/-! ## The aging thread -/

/-- What the aging thread keeps between two rows : the value it read last, and whether it
has exited with an error. -/
structure AgingLocal where
  value : UInt64
  exited : Bool

/-- The aging thread reads one inactive row and ages it. The thread repeats this; the
`SELECT` starts again after its last row. `value` keeps its last content where the read
of the counter fails. -/
def serverDbAging (l : AgingLocal) : CpProg AgingLocal := do
  if l.exited then
    return l
  match ← stepInactiveServers with
  | none => return { l with exited := true }
  | some none => return l
  | some (some row) =>
    let (rc, connTotal) ← alvsDbGetNumConnTotal row.server.npsIndex
    if rc = .internalError then
      return { l with exited := true }
    let l := { l with value := connTotal.getD l.value }
    if l.value ≠ 0 then
      return l
    if (← internalDbDeleteServer row.srv row.server.ip row.server.port) = false then
      return { l with exited := true }
    if (← infraDeleteEntry (.serverInfo (buildNpsServerInfoKey row.server))) = false then
      return { l with exited := true }
    serverIndexPoolRelease row.server.npsIndex
    return l

end Alvs

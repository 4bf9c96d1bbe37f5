import Alvs.Cp.Requests
import Alvs.Cp.ClearStats
import Alvs.Lib.Refine
import Alvs.Nw.Tables

/-!
# The messages of the administrator

`ipvsadm` talks to the kernel with netlink messages, which the application reads as well
(`process_packet`, `alvs_msg_parser`) : a message is parsed and its request served, and an internal
error of the database ends the application. At the start the services, servers and daemons of the
kernel are read and added (`alvs_db_manager_table_init`).

An attribute that is read though the message does not have it is a null pointer (`MsgResult.fault`).
-/

namespace Alvs

open ProgLogic

/-! ## Messages -/

/-- A nested attribute as `nla_parse_nested` returns it. -/
inductive Nested (α : Type)
  | absent
  | malformed
  | parsed (a : α)

/-- The attributes of a daemon, with `alvs_daemon_policy`. The name has at most
`IP_VS_IFNAME_MAXLEN` bytes, as many as a scheduler's. -/
structure DaemonAttrs where
  state : Option UInt32
  mcastIfn : Option SchedNameAttr
  syncId : Option UInt32

/-- The commands of `alvs_cmds`, and any other one. -/
inductive IpvsCmd
  | newService
  | delService
  | setService
  | newDest
  | delDest
  | setDest
  | flush
  | newDaemon
  | delDaemon
  | getDaemon
  | getInfo
  | zero
  | getService
  | getDest
  | other
  deriving DecidableEq

/-- A message : the type and flags of its header, its command and its attributes. -/
structure IpvsMsg where
  nlmsgType : UInt16
  nlmsgFlags : UInt16
  cmd : IpvsCmd
  service : Nested SvcAttrs
  dest : Nested DestAttrs
  daemon : Nested DaemonAttrs

/-- `NLM_F_REQUEST`. -/
def nlmFRequest : UInt16 := 1

/-- `NLM_F_DUMP`. -/
def nlmFDump : UInt16 := 0x300

/-! ## The parser of daemons -/

def IpVsDaemonUser.zero : IpVsDaemonUser := ⟨0, "", 0⟩

/-- The second of the two daemons is set once the first one is. -/
def alvsGenlParseDaemonFromMsghdr (daemon : Nested DaemonAttrs)
    (ret : IpVsDaemonUser × IpVsDaemonUser) : Parsed (IpVsDaemonUser × IpVsDaemonUser) :=
  match daemon with
  | .absent => .fault
  | .malformed => .error
  | .parsed a =>
    match a.state, a.mcastIfn, a.syncId with
    | some state, some mcastIfn, some syncId =>
      let d : IpVsDaemonUser :=
        ⟨state.toInt32, cString (strncpy 16 mcastIfn.payload), syncId.toInt32⟩
      if ret.1.state = ipVsStateMaster ∨ ret.1.state = ipVsStateBackup then .ok (ret.1, d)
      else .ok (d, ret.2)
    | _, _, _ => .error

def alvsDbLogDaemon : CpProg AlvsDbRc := do
  match ← internalDbGetApplicationInfo alvsApplicationInfoIndex with
  | none => return .internalError
  | some _ => return .ok

/-! ## What is printed -/

/-- The counters that are not 0, with their positions. -/
def nonzeroCounters (counters : List UInt64) : List (Nat × UInt64) :=
  counters.zipIdx.filterMap fun c => if c.1 > 0 then some (c.2, c.1) else none

def alvsDbPrintGlobalErrorStats : StatsProg (AlvsDbRc × List (Nat × UInt64)) := do
  let some counters ← infraGetPostedCounters alvsErrorStatsBase alvsNumOfAlvsErrorStats
    | return (.npsError, [])
  return (.ok, nonzeroCounters counters)

def nwDbPrintInterfaceStats (interface : UInt32) : StatsProg (Option (List (Nat × UInt64))) := do
  let some counters ← infraGetPostedCounters (ifStatsBase.add (interface * nwNumOfIfStats))
      nwNumOfIfStats
    | return none
  return some (nonzeroCounters counters)

/-- The lines of interfaces, up to one whose counters cannot be read. -/
def printInterfaces : List UInt32 → StatsProg (List (UInt32 × List (Nat × UInt64)))
  | [] => pure []
  | interface :: interfaces => do
    let some counters ← nwDbPrintInterfaceStats interface
      | return []
    return (interface, counters) :: (← printInterfaces interfaces)

/-- The network interfaces and the host interface. -/
def nwDbPrintAllInterfacesStats : StatsProg (List (UInt32 × List (Nat × UInt64))) :=
  printInterfaces (((List.range userNwIfNum.toNat).map fun i => userBaseLogicalId + .ofNat i) ++
    [userBaseLogicalId + userNwIfNum])

/-! ## The parser of messages -/

/-- What `alvs_msg_parser` returns, or how it does not. -/
inductive MsgResult
  | nlOk
  | nlSkip
  | fault
  | exit
  deriving DecidableEq

/-- What the surroundings settle : whether statistics are printed, what `getifaddrs` returns, and
what the stack holds. -/
structure MsgEnv where
  printStatsEnabled : Bool
  ifaddr : Option (List IfAddr)
  uninit : Nat

/-- A program of the control plane among the statistics functions. -/
def statsOf {α : Type} (p : CpProg α) : StatsProg α := p.embed StatsCall.cp fun _ r => r

/-- The application ends on a fatal error. -/
def MsgResult.of (rc : AlvsDbRc) : MsgResult :=
  if rc = .internalError ∨ rc = .npsError then .exit else .nlOk

/-- The service of a message is parsed for `f`. -/
def withParsedService (service : Nested SvcAttrs) (needFullSvc : Bool)
    (f : IpVsServiceUser → StatsProg MsgResult) : StatsProg MsgResult := do
  match service with
  | .absent => return .nlSkip
  | .malformed => return .nlSkip
  | .parsed a =>
    match ← statsOf (alvsGenlParseService a needFullSvc) with
    | .error => return .nlSkip
    | .fault => return .fault
    | .ok svc => f svc.toIpVsServiceUser

/-- The destination of a message is parsed for `f`. -/
def withParsedDest (dest : Nested DestAttrs) (needFullDest : Bool)
    (f : IpVsDestUser → StatsProg MsgResult) : StatsProg MsgResult :=
  match dest with
  | .absent => pure .nlSkip
  | .malformed => pure .nlSkip
  | .parsed a =>
    match alvsGenlParseDest a needFullDest with
    | .error => pure .nlSkip
    | .fault => pure .fault
    | .ok dest => f dest

/-- The daemon of a message is parsed for `f`. -/
def withParsedDaemon (daemon : Nested DaemonAttrs) (f : IpVsDaemonUser → StatsProg MsgResult) :
    StatsProg MsgResult :=
  match alvsGenlParseDaemonFromMsghdr daemon (.zero, .zero) with
  | .error => pure .nlSkip
  | .fault => pure .fault
  | .ok daemons => f daemons.1

def alvsMsgParser (e : MsgEnv) (m : IpvsMsg) : StatsProg MsgResult := do
  match m.cmd with
  | .getDaemon =>
    if (← statsOf alvsDbLogDaemon) = .internalError then
      return .exit
    return .nlOk
  | .newDaemon =>
    withParsedDaemon m.daemon fun d => MsgResult.of <$> statsOf (alvsDbStartDaemon e.ifaddr d)
  | .delDaemon =>
    withParsedDaemon m.daemon fun d => MsgResult.of <$> statsOf (alvsDbStopDaemon d)
  | .newService =>
    withParsedService m.service true fun svc => MsgResult.of <$> statsOf (alvsDbAddService svc)
  | .setService =>
    withParsedService m.service true fun svc => MsgResult.of <$> statsOf (alvsDbModifyService svc)
  | .delService =>
    withParsedService m.service false fun svc =>
      MsgResult.of <$> statsOf (alvsDbDeleteService svc e.uninit)
  | .newDest =>
    withParsedService m.service false fun svc => withParsedDest m.dest true fun dest =>
      MsgResult.of <$> statsOf (alvsDbAddServer svc dest)
  | .setDest =>
    withParsedService m.service false fun svc => withParsedDest m.dest true fun dest =>
      MsgResult.of <$> statsOf (alvsDbModifyServer svc dest)
  | .delDest =>
    withParsedService m.service false fun svc => withParsedDest m.dest false fun dest =>
      MsgResult.of <$> statsOf (alvsDbDeleteServer svc dest)
  | .zero => MsgResult.of <$> alvsDbClearStats e.uninit
  | .getDest =>
    if e.printStatsEnabled then
      withParsedService m.service false fun svc =>
        (fun printed => MsgResult.of printed.1) <$> alvsDbPrintServersStats svc e.uninit
    else
      return .nlOk
  | .getService =>
    if e.printStatsEnabled then
      let rc := (← alvsDbPrintGlobalErrorStats).1
      let _ ← nwDbPrintAllInterfacesStats
      if m.nlmsgFlags &&& nlmFDump ≠ 0 then
        return .of (← alvsDbPrintServicesStats).1
      return .of rc
    else
      return .nlOk
  | .getInfo => return .nlOk
  | .flush => MsgResult.of <$> statsOf alvsDbClear
  | .other => return .of .notSupported

/-- Only requests of the family are looked at. -/
def processPacket (family : UInt16) (e : MsgEnv) (m : IpvsMsg) : StatsProg MsgResult :=
  if m.nlmsgType = family ∧ m.nlmsgFlags &&& nlmFRequest ≠ 0 then alvsMsgParser e m
  else pure .nlSkip

/-! ## The start -/

/-- What the kernel answers at the start : the messages of each dump, or `none` where it cannot be
asked. -/
structure KernelDump where
  daemons : Option (List (Nested DaemonAttrs))
  services : Option (List (Nested SvcAttrs))
  dests : IpVsServiceEntry → Option (List (Nested DestAttrs))

/-- The daemons of a dump. -/
def parseDaemons : List (Nested DaemonAttrs) → IpVsDaemonUser × IpVsDaemonUser →
    Parsed (IpVsDaemonUser × IpVsDaemonUser)
  | [], ret => .ok ret
  | daemon :: daemons, ret =>
    match alvsGenlParseDaemonFromMsghdr daemon ret with
    | .ok ret => parseDaemons daemons ret
    | .error => .error
    | .fault => .fault

def alvsGetStateSyncInfo (dump : KernelDump) : Parsed (IpVsDaemonUser × IpVsDaemonUser) :=
  match dump.daemons with
  | none => .error
  | some daemons => parseDaemons daemons (.zero, .zero)

/-- A message of the dump of services. -/
def parseDumpedService : Nested SvcAttrs → Option IpVsServiceEntry
  | .absent => none
  | .malformed => none
  | .parsed a =>
    match alvsServicesParseCb a with
    | .ok svc => some svc
    | _ => none

/-- A message of the dump of destinations. -/
def parseDumpedDest : Nested DestAttrs → Option IpVsDestUser
  | .absent => none
  | .malformed => none
  | .parsed a =>
    match alvsDestsParseCb a with
    | .ok dest => some dest
    | _ => none

def alvsGetServices (dump : KernelDump) : Option (List IpVsServiceEntry) :=
  dump.services.bind fun services => services.mapM parseDumpedService

def alvsGetDests (dump : KernelDump) (svc : IpVsServiceEntry) : Option (List IpVsDestUser) :=
  (dump.dests svc).bind fun dests => dests.mapM parseDumpedDest

/-- Add the servers of a service. Only an internal error ends the application. -/
def addServers (svc : IpVsServiceUser) : List IpVsDestUser → CpProg MsgResult
  | [] => pure .nlOk
  | dest :: dests => do
    if (← alvsDbAddServer svc dest) = .internalError then
      return .exit
    addServers svc dests

/-- Add services with their servers. -/
def addServices (dump : KernelDump) : List IpVsServiceEntry → CpProg MsgResult
  | [] => pure .nlOk
  | svc :: services => do
    if (← alvsDbAddService svc.toIpVsServiceUser) = .internalError then
      return .exit
    match alvsGetDests dump svc with
    | none => return .exit
    | some dests =>
      if (← addServers svc.toIpVsServiceUser dests) = .exit then
        return .exit
      addServices dump services

def alvsDbManagerTableInit (ifaddr : Option (List IfAddr)) (dump : KernelDump) :
    CpProg MsgResult := do
  match alvsGetStateSyncInfo dump with
  | .error => return .exit
  | .fault => return .fault
  | .ok daemons =>
    let rc ← alvsDbInitDaemon ifaddr daemons.1 daemons.2
    if rc = .internalError ∨ rc = .npsError then
      return .exit
    match alvsGetServices dump with
    | none => return .exit
    | some services => addServices dump services

/-! ## The manager -/

/-- The application runs, has ended itself, or was ended by a null pointer. -/
inductive ManagerStatus
  | running
  | exited
  | crashed
  deriving DecidableEq

def MsgResult.status : MsgResult → ManagerStatus
  | .nlOk => .running
  | .nlSkip => .running
  | .exit => .exited
  | .fault => .crashed

structure Manager where
  sys : Sys
  status : ManagerStatus

/-- A packet of the raw socket, or a round of the aging thread. -/
inductive ManagerAct
  | packet (e : MsgEnv) (m : IpvsMsg)
  | aging (pick : Nat)

/-- The manager once its tables are initialised. -/
def Manager.init (ifaddr : Option (List IfAddr)) (dump : KernelDump) : Manager where
  sys := (Sys.init.runCp 0 (alvsDbManagerTableInit ifaddr dump)).2
  status := (Sys.init.runCp 0 (alvsDbManagerTableInit ifaddr dump)).1.status

/-- One action, all of whose calls succeed. The application that has ended does nothing. -/
def Manager.act (family : UInt16) (g : Manager) : ManagerAct → Manager
  | .packet e m =>
    if g.status = .running then
      ⟨(g.sys.runStats (processPacket family e m)).2,
        (g.sys.runStats (processPacket family e m)).1.status⟩
    else g
  | .aging pick => if g.status = .running then { g with sys := g.sys.cpStep (.aging pick) } else g

end Alvs

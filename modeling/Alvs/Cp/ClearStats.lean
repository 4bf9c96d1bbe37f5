import Alvs.Cp.Inv

/-!
# Clearing and showing the statistics

The traffic counters of a service and of a server are posted counters, which only grow. The
command that clears the statistics does not clear them : it saves their values in the rows of
the database (`alvs_db_clear_stats`), and what is shown later is the difference
(`alvs_db_print_services_stats`, `alvs_db_print_servers_stats`).

`runStats_clearStats`, `runStats_printServicesStats`, `runStats_printServersStats` : what these
functions do where every call succeeds. The rows of servers whose service does not exist are not
saved.
-/

namespace Alvs

open ProgLogic

/-! ## The counters -/

/-- The counters of a row that are saved. -/
inductive TrafficCounter
  | inPacket
  | inByte
  | outPacket
  | outByte
  | connectionScheduled
  deriving DecidableEq

/-- The place of a counter in the statistics of a service. -/
def TrafficCounter.serviceOffset : TrafficCounter → UInt32
  | inPacket => alvsServiceStatsInPktsBytesOffset
  | inByte => alvsServiceStatsInPktsBytesOffset + 1
  | outPacket => alvsServiceStatsOutPktsBytesOffset
  | outByte => alvsServiceStatsOutPktsBytesOffset + 1
  | connectionScheduled => alvsServiceStatsConnSchedOffset

/-- The place of a counter in the statistics of a server. -/
def TrafficCounter.serverOffset : TrafficCounter → UInt32
  | inPacket => alvsServerStatsInPktsBytesOffset
  | inByte => alvsServerStatsInPktsBytesOffset + 1
  | outPacket => alvsServerStatsOutPktsBytesOffset
  | outByte => alvsServerStatsOutPktsBytesOffset + 1
  | connectionScheduled => alvsServerStatsConnSchedOffset

/-- The posted counter of the service with index `i`. -/
def serviceCounter (i : UInt32) (c : TrafficCounter) : SumAddr :=
  (serviceStatsBase i).add c.serviceOffset

/-- The posted counter of the server with index `i`. -/
def serverCounter (i : UInt32) (c : TrafficCounter) : SumAddr :=
  (serverStatsBase i).add c.serverOffset

def DbStats.get (stats : DbStats) : TrafficCounter → UInt64
  | .inPacket => stats.inPacket
  | .inByte => stats.inByte
  | .outPacket => stats.outPacket
  | .outByte => stats.outByte
  | .connectionScheduled => stats.connectionScheduled

/-- What is printed : the posted counters less the saved ones. -/
def DbStats.diff (posted saved : DbStats) : DbStats where
  connectionScheduled := posted.connectionScheduled - saved.connectionScheduled
  inPacket := posted.inPacket - saved.inPacket
  inByte := posted.inByte - saved.inByte
  outPacket := posted.outPacket - saved.outPacket
  outByte := posted.outByte - saved.outByte

@[simp] theorem DbStats.get_diff (posted saved : DbStats) (c : TrafficCounter) :
    (posted.diff saved).get c = posted.get c - saved.get c := by
  cases c <;> rfl

@[simp] theorem DbStats.get_zero (c : TrafficCounter) : DbStats.zero.get c = 0 := by
  cases c <;> rfl

/-! ## The calls -/

def nwNumOfIfStats : UInt32 := 20
def userNwIfNum : UInt32 := 4

/-- The statistics of the interfaces. -/
def ifStatsBase : SumAddr :=
  ⟨true, userPostedStatsMsid, ememServerStatsPostedOffset + 256 * 1024 * alvsNumOfServerStats⟩

/-- The statistics of errors. -/
def alvsErrorStatsBase : SumAddr := ⟨true, userPostedStatsMsid, ememAlvsErrorStatsPostedOffset⟩

/-- The calls of the statistics functions : those of `CpCall` and four more. -/
inductive StatsCall
  | cp (call : CpCall)
  /-- The rows that the steps of `SELECT * FROM services` return. -/
  | selectServices
  | infraGetPostedCounters (addr : SumAddr) (count : UInt32)
  /-- The `UPDATE` of `internal_db_save_service_stats`. -/
  | updateServiceStats (service : ServiceTuple) (stats : DbStats)
  /-- The `UPDATE` of `internal_db_save_server_stats`. -/
  | updateServerStats (ip : UInt32) (port : UInt16) (npsIndex : UInt32) (stats : DbStats)

def StatsCall.Res : StatsCall → Type
  | cp call => call.Res
  | selectServices => Option (List DbService)
  | infraGetPostedCounters _ _ => Option (List UInt64)
  | updateServiceStats _ _ => Bool
  | updateServerStats _ _ _ _ => Bool

/-- A program of the statistics functions. -/
abbrev StatsProg := Prog StatsCall StatsCall.Res

/-! ### The calls as programs -/

def selectServices : StatsProg (Option (List DbService)) := Prog.perform StatsCall.selectServices

def infraGetPostedCounters (addr : SumAddr) (count : UInt32) : StatsProg (Option (List UInt64)) :=
  Prog.perform (StatsCall.infraGetPostedCounters addr count)

def updateServiceStats (service : ServiceTuple) (stats : DbStats) : StatsProg Bool :=
  Prog.perform (StatsCall.updateServiceStats service stats)

def updateServerStats (ip : UInt32) (port : UInt16) (npsIndex : UInt32) (stats : DbStats) :
    StatsProg Bool :=
  Prog.perform (StatsCall.updateServerStats ip port npsIndex stats)

/-- A call of the control plane. -/
def liftCp (call : CpCall) : StatsProg call.Res := Prog.perform (StatsCall.cp call)

def clearPostedCounters (addr : SumAddr) (count : UInt32) : StatsProg Bool :=
  liftCp (.infraClearPostedCounters addr count)

def getLongCounter (addr : SumAddr) : StatsProg (Option UInt64) :=
  liftCp (.infraGetLongCounter addr)

def getService (service : ServiceTuple) : StatsProg (Option (Option DbService)) :=
  liftCp (.internalDbGetService service)

def getServerCount (service : ServiceTuple) : StatsProg (Option Nat) :=
  liftCp (.internalDbGetServerCount service ⟨false, false⟩)

def getServerList (service : ServiceTuple) : StatsProg (Option (List DbServer)) :=
  liftCp (.internalDbGetServerList service ⟨false, false⟩)

/-! ### What a call does -/

namespace Cp

/-- `UPDATE services SET in_packet, … WHERE ip AND port AND protocol`. -/
def updateServiceStats (cp : Cp) (t : ServiceTuple) (stats : DbStats) : Cp :=
  { cp with
    services := cp.services.map fun v =>
      if v.tuple = t then { v with serviceStats := stats } else v }

/-- The row has these values of `ip`, `port` and `nps_index`. -/
def OfServer (ip : UInt32) (port : UInt16) (npsIndex : UInt32) (r : ServerRow) : Prop :=
  r.server.ip = ip ∧ r.server.port = port ∧ r.server.npsIndex = npsIndex

instance (ip : UInt32) (port : UInt16) (npsIndex : UInt32) (r : ServerRow) :
    Decidable (OfServer ip port npsIndex r) :=
  inferInstanceAs (Decidable (_ ∧ _))

/-- `UPDATE servers SET connection_scheduled, … WHERE ip AND port AND nps_index`. -/
def updateServerStats (cp : Cp) (ip : UInt32) (port : UInt16) (npsIndex : UInt32)
    (stats : DbStats) : Cp :=
  { cp with
    servers := cp.servers.map fun r =>
      if OfServer ip port npsIndex r then
        { r with server := { r.server with serverStats := stats } }
      else r }

end Cp

/-- The values of counters that lie side by side. -/
def Nps.postedCounters (nps : Nps) (addr : SumAddr) (count : UInt32) : List UInt64 :=
  (List.range count.toNat).map fun k => counterValue (nps.posted (addr.add (.ofNat k)))

/-- What a call leaves open : whether it fails, and after how many rows a step of the `SELECT`
fails, which ends its rows as the last one does. -/
structure StatsEnv where
  fails : Bool
  rows : Option Nat

/-- The environment in which every call succeeds. -/
def StatsEnv.ok : StatsEnv := ⟨false, none⟩

def statsHandle (e : StatsEnv) : (op : StatsCall) → Sys → op.Res × Sys
  | .cp call, s => cpHandle ⟨e.fails, 0⟩ call s
  | .selectServices, s =>
    (if e.fails then none else some (s.cp.services.take (e.rows.getD s.cp.services.length)), s)
  | .infraGetPostedCounters a n, s =>
    (if e.fails then none else some (s.nps.postedCounters a n), s)
  | .updateServiceStats t stats, s =>
    s.attempt ⟨e.fails, 0⟩ { s with cp := s.cp.updateServiceStats t stats }
  | .updateServerStats ip port i stats, s =>
    s.attempt ⟨e.fails, 0⟩ { s with cp := s.cp.updateServerStats ip port i stats }

/-! ## The functions -/

def alvsDbGetServiceCounters (serviceIndex : UInt32) : StatsProg (Except AlvsDbRc DbStats) := do
  let some counters ← infraGetPostedCounters (serviceStatsBase serviceIndex)
      alvsNumOfServiceStats
    | return .error .npsError
  return .ok {
    inPacket := counters.getD alvsServiceStatsInPktsBytesOffset.toNat 0
    inByte := counters.getD (alvsServiceStatsInPktsBytesOffset.toNat + 1) 0
    outPacket := counters.getD alvsServiceStatsOutPktsBytesOffset.toNat 0
    outByte := counters.getD (alvsServiceStatsOutPktsBytesOffset.toNat + 1) 0
    connectionScheduled := counters.getD alvsServiceStatsConnSchedOffset.toNat 0 }

/-- The counters of a server. The total is not there where it is not read. -/
structure ServerCounters where
  stats : DbStats
  activeConnection : UInt64
  inactiveConnection : UInt64
  connectionTotal : Option UInt64

def alvsDbGetServerCounters (serverIndex : UInt32) (readConnectionTotal : Bool) :
    StatsProg (Except AlvsDbRc ServerCounters) := do
  let some counters ← infraGetPostedCounters (serverStatsBase serverIndex) alvsNumOfServerStats
    | return .error .npsError
  let serverStats : ServerCounters := {
    stats := {
      inPacket := counters.getD alvsServerStatsInPktsBytesOffset.toNat 0
      inByte := counters.getD (alvsServerStatsInPktsBytesOffset.toNat + 1) 0
      outPacket := counters.getD alvsServerStatsOutPktsBytesOffset.toNat 0
      outByte := counters.getD (alvsServerStatsOutPktsBytesOffset.toNat + 1) 0
      connectionScheduled := counters.getD alvsServerStatsConnSchedOffset.toNat 0 }
    activeConnection := counters.getD alvsServerStatsActiveConnOffset.toNat 0
    inactiveConnection := counters.getD alvsServerStatsInactiveConnOffset.toNat 0
    connectionTotal := none }
  if readConnectionTotal = false then
    return .ok serverStats
  let some connectionTotal ← getLongCounter (serverOnDemandStatsBase serverIndex)
    | return .error .npsError
  return .ok { serverStats with connectionTotal := some connectionTotal }

def internalDbSaveServiceStats (service : DbService) : StatsProg AlvsDbRc := do
  match ← alvsDbGetServiceCounters service.npsIndex with
  | .error rc => return rc
  | .ok stats =>
    if (← updateServiceStats service.tuple stats) = false then
      return .internalError
    return .ok

def internalDbSaveServerStats (server : DbServer) : StatsProg AlvsDbRc := do
  match ← alvsDbGetServerCounters server.npsIndex false with
  | .error rc => return rc
  | .ok counters =>
    if (← updateServerStats server.ip server.port server.npsIndex counters.stats) = false then
      return .internalError
    return .ok

def alvsDbCleanErrorStats : StatsProg AlvsDbRc := do
  if (← clearPostedCounters alvsErrorStatsBase alvsNumOfAlvsErrorStats) = false then
    return .npsError
  return .ok

/-- 4 network interfaces and the host interface. -/
def alvsDbCleanInterfaceStats : StatsProg AlvsDbRc := do
  if (← clearPostedCounters ifStatsBase (nwNumOfIfStats * (userNwIfNum + 1))) = false then
    return .npsError
  return .ok

/-- Save the counters of nodes of a cyclic list. -/
def saveServers (serverList : List DbServer) : List Nat → StatsProg AlvsDbRc
  | [] => pure .ok
  | ind :: inds => do
    match cyclicNode serverList ind with
    | none => saveServers serverList inds
    | some server =>
      let rc ← internalDbSaveServerStats server
      if rc ≠ .ok then
        return rc
      saveServers serverList inds

/-- Save the counters of services and of their servers. The count of the servers keeps its
value where it fails. -/
def saveServices : Nat → List DbService → StatsProg AlvsDbRc
  | _, [] => pure .ok
  | serverCount, service :: services => do
    if (← internalDbSaveServiceStats service) ≠ .ok then
      return .internalError
    let serverCount := (← getServerCount service.tuple).getD serverCount
    let some serverList ← getServerList service.tuple
      | return .internalError
    let rc ← saveServers serverList (List.range serverCount)
    if rc ≠ .ok then
      return rc
    saveServices serverCount services

/-- `uninit` is what the stack holds for `server_count`. -/
def alvsDbClearStats (uninit : Nat) : StatsProg AlvsDbRc := do
  let some services ← selectServices
    | return .internalError
  let rc ← saveServices uninit services
  if rc ≠ .ok then
    return rc
  if (← alvsDbCleanErrorStats) ≠ .ok then
    return .npsError
  if (← alvsDbCleanInterfaceStats) ≠ .ok then
    return .npsError
  return .ok

/-- The lines of services that are printed. -/
def printServices : List DbService → StatsProg (AlvsDbRc × List (ServiceTuple × DbStats))
  | [] => pure (.ok, [])
  | service :: services => do
    match ← alvsDbGetServiceCounters service.npsIndex with
    | .error _ => return (.npsError, [])
    | .ok counters =>
      let (rc, lines) ← printServices services
      return (rc, (service.tuple, counters.diff service.serviceStats) :: lines)

def alvsDbPrintServicesStats : StatsProg (AlvsDbRc × List (ServiceTuple × DbStats)) := do
  let some services ← selectServices
    | return (.internalError, [])
  printServices services

/-- A line of a server. -/
structure ServerLine where
  ip : UInt32
  port : UInt16
  stats : DbStats
  connectionTotal : Option UInt64
  activeConnection : UInt64
  inactiveConnection : UInt64

/-- The lines of nodes of a cyclic list. -/
def printServers (serverList : List DbServer) :
    List Nat → StatsProg (AlvsDbRc × List ServerLine)
  | [] => pure (.ok, [])
  | ind :: inds => do
    match cyclicNode serverList ind with
    | none => printServers serverList inds
    | some server =>
      match ← alvsDbGetServerCounters server.npsIndex true with
      | .error rc => return (rc, [])
      | .ok counters =>
        let (rc, lines) ← printServers serverList inds
        return (rc, {
          ip := server.ip
          port := server.port
          stats := counters.stats.diff server.serverStats
          connectionTotal := counters.connectionTotal
          activeConnection := counters.activeConnection
          inactiveConnection := counters.inactiveConnection } :: lines)

/-- Goes on where the service cannot be read. -/
def alvsDbPrintServersStats (ipVsService : IpVsServiceUser) (uninit : Nat) :
    StatsProg (AlvsDbRc × List ServerLine) := do
  match ← getService ipVsService.tuple with
  | some none => return (.internalError, [])
  | _ =>
    let serverCount := (← getServerCount ipVsService.tuple).getD uninit
    let some serverList ← getServerList ipVsService.tuple
      | return (.internalError, [])
    printServers serverList (List.range serverCount)

/-! ## What they do -/

/-- Execute a program, all of whose calls succeed. -/
def Sys.runStats {α : Type} (s : Sys) (p : StatsProg α) : α × Sys :=
  p.exec (statsHandle .ok) s

namespace Nps

/-- The traffic counters of the service with index `i`. -/
def serviceCounters (nps : Nps) (i : UInt32) : DbStats where
  connectionScheduled := counterValue (nps.posted (serviceCounter i .connectionScheduled))
  inPacket := counterValue (nps.posted (serviceCounter i .inPacket))
  inByte := counterValue (nps.posted (serviceCounter i .inByte))
  outPacket := counterValue (nps.posted (serviceCounter i .outPacket))
  outByte := counterValue (nps.posted (serviceCounter i .outByte))

/-- The traffic counters of the server with index `i`. -/
def serverCounters (nps : Nps) (i : UInt32) : DbStats where
  connectionScheduled := counterValue (nps.posted (serverCounter i .connectionScheduled))
  inPacket := counterValue (nps.posted (serverCounter i .inPacket))
  inByte := counterValue (nps.posted (serverCounter i .inByte))
  outPacket := counterValue (nps.posted (serverCounter i .outPacket))
  outByte := counterValue (nps.posted (serverCounter i .outByte))

@[simp] theorem get_serviceCounters (nps : Nps) (i : UInt32) (c : TrafficCounter) :
    (nps.serviceCounters i).get c = counterValue (nps.posted (serviceCounter i c)) := by
  cases c <;> rfl

@[simp] theorem get_serverCounters (nps : Nps) (i : UInt32) (c : TrafficCounter) :
    (nps.serverCounters i).get c = counterValue (nps.posted (serverCounter i c)) := by
  cases c <;> rfl

/-- The counter at a place of a server's statistics. -/
def serverCounterAt (nps : Nps) (i offset : UInt32) : UInt64 :=
  counterValue (nps.posted ((serverStatsBase i).add offset))

end Nps

def DbService.saved (nps : Nps) (v : DbService) : DbService :=
  { v with serviceStats := nps.serviceCounters v.npsIndex }

def ServerRow.saved (nps : Nps) (r : ServerRow) : ServerRow :=
  { r with server := { r.server with serverStats := nps.serverCounters r.server.npsIndex } }

@[simp] theorem DbService.saved_saved (nps : Nps) (v : DbService) :
    (v.saved nps).saved nps = v.saved nps := rfl

@[simp] theorem ServerRow.saved_saved (nps : Nps) (r : ServerRow) :
    (r.saved nps).saved nps = r.saved nps := rfl

/-- The counters saved in the rows that `p` and `q` choose. -/
def Cp.savedWhere (cp : Cp) (nps : Nps) (p : DbService → Bool) (q : ServerRow → Bool) : Cp :=
  { cp with
    services := cp.services.map fun v => if p v then v.saved nps else v
    servers := cp.servers.map fun r => if q r then r.saved nps else r }

/-- The line of a server. -/
def Nps.serverLine (nps : Nps) (v : DbServer) : ServerLine where
  ip := v.ip
  port := v.port
  stats := (nps.serverCounters v.npsIndex).diff v.serverStats
  connectionTotal := some (counterValue (nps.onDemand (serverOnDemandStatsBase v.npsIndex)))
  activeConnection := nps.serverCounterAt v.npsIndex alvsServerStatsActiveConnOffset
  inactiveConnection := nps.serverCounterAt v.npsIndex alvsServerStatsInactiveConnOffset

section Run

variable {α β : Type} (s : Sys)

@[simp] theorem runStats_pure (a : α) : s.runStats (pure a) = (a, s) := rfl

@[simp] theorem runStats_bind (p : StatsProg α) (f : α → StatsProg β) :
    s.runStats (p >>= f) = (s.runStats p).2.runStats (f (s.runStats p).1) :=
  Prog.exec_bind _ p f s

theorem runStats_getServiceCounters (i : UInt32) :
    s.runStats (alvsDbGetServiceCounters i) = (.ok (s.nps.serviceCounters i), s) := rfl

theorem runStats_getServerCounters (i : UInt32) (b : Bool) :
    s.runStats (alvsDbGetServerCounters i b) = (.ok {
      stats := s.nps.serverCounters i
      activeConnection := s.nps.serverCounterAt i alvsServerStatsActiveConnOffset
      inactiveConnection := s.nps.serverCounterAt i alvsServerStatsInactiveConnOffset
      connectionTotal :=
        if b then some (counterValue (s.nps.onDemand (serverOnDemandStatsBase i))) else none },
      s) := by
  cases b <;> rfl

theorem runStats_printServices (services : List DbService) :
    s.runStats (printServices services) = ((.ok, services.map fun v =>
      (v.tuple, (s.nps.serviceCounters v.npsIndex).diff v.serviceStats)), s) := by
  induction services with
  | nil => rfl
  | cons v services ih =>
    simp only [printServices, runStats_bind, runStats_getServiceCounters, ih, runStats_pure,
      List.map_cons]

theorem runStats_printServers (serverList : List DbServer) (inds : List Nat) :
    s.runStats (printServers serverList inds) =
      ((.ok, (inds.filterMap (cyclicNode serverList)).map s.nps.serverLine), s) := by
  induction inds with
  | nil => rfl
  | cons ind inds ih =>
    unfold printServers
    cases hnode : cyclicNode serverList ind with
    | none => rw [ih, List.filterMap_cons_none hnode]
    | some v =>
      simp only [runStats_bind, runStats_getServerCounters, ih, runStats_pure,
        List.filterMap_cons_some hnode, List.map_cons]
      rfl

/-- What is printed of the services. -/
theorem runStats_printServicesStats :
    s.runStats alvsDbPrintServicesStats = ((.ok, s.cp.services.map fun v =>
      (v.tuple, (s.nps.serviceCounters v.npsIndex).diff v.serviceStats)), s) := by
  have hrows : s.runStats selectServices = (some s.cp.services, s) := by
    show (some (s.cp.services.take s.cp.services.length), s) = _
    rw [List.take_length]
  simp only [alvsDbPrintServicesStats, runStats_bind, hrows, runStats_printServices]

/-- What is printed of the servers of a service that exists. -/
theorem runStats_printServersStats (u : IpVsServiceUser) (uninit : Nat)
    (hservice : (s.cp.findService u.tuple).isSome) :
    s.runStats (alvsDbPrintServersStats u uninit) =
      ((.ok, (s.cp.serverList u.tuple ⟨false, false⟩).map s.nps.serverLine), s) := by
  have hget : s.runStats (getService u.tuple) = (some (s.cp.findService u.tuple), s) := rfl
  have hcount : s.runStats (getServerCount u.tuple) =
      (some (s.cp.serverList u.tuple ⟨false, false⟩).length, s) := rfl
  have hlist : s.runStats (getServerList u.tuple) =
      (some (s.cp.serverList u.tuple ⟨false, false⟩), s) := rfl
  obtain ⟨v, hv⟩ := Option.isSome_iff_exists.mp hservice
  simp only [alvsDbPrintServersStats, runStats_bind, hget, hv, hcount, hlist, Option.getD_some,
    runStats_printServers, filterMap_cyclicNode]

end Run

/-! ## What is saved -/

namespace Cp

variable {cp : Cp} {nps : Nps}

theorem savedWhere_congr {p p' : DbService → Bool} {q q' : ServerRow → Bool}
    (hp : ∀ v ∈ cp.services, p v = p' v) (hq : ∀ r ∈ cp.servers, q r = q' r) :
    cp.savedWhere nps p q = cp.savedWhere nps p' q' := by
  have hservices := List.map_congr_left fun v hv =>
    congrArg (fun b => if b = true then v.saved nps else v) (hp v hv)
  have hservers := List.map_congr_left fun r hr =>
    congrArg (fun b => if b = true then r.saved nps else r) (hq r hr)
  simp only [savedWhere, hservices, hservers]

theorem savedWhere_none : cp.savedWhere nps (fun _ => false) (fun _ => false) = cp := by
  simp [savedWhere]

/-- Saving twice saves what either saves. -/
theorem savedWhere_savedWhere (p p' : DbService → Bool) (q q' : ServerRow → Bool)
    (hp : ∀ v, p' (v.saved nps) = p' v) (hq : ∀ r, q' (r.saved nps) = q' r) :
    (cp.savedWhere nps p q).savedWhere nps p' q' =
      cp.savedWhere nps (fun v => p v || p' v) (fun r => q r || q' r) := by
  have hservice (v : DbService) :
      (if p' (if p v then v.saved nps else v) then
        (if p v then v.saved nps else v).saved nps else if p v then v.saved nps else v) =
      if p v || p' v then v.saved nps else v := by
    cases hpv : p v <;> cases hpv' : p' v <;> simp [hp, hpv']
  have hserver (r : ServerRow) :
      (if q' (if q r then r.saved nps else r) then
        (if q r then r.saved nps else r).saved nps else if q r then r.saved nps else r) =
      if q r || q' r then r.saved nps else r := by
    cases hqr : q r <;> cases hqr' : q' r <;> simp [hq, hqr']
  simp only [savedWhere, List.map_map, Function.comp_def, hservice, hserver]

/-- The `UPDATE` of a service saves its row. -/
theorem updateServiceStats_eq (w : DbService)
    (hw : ∀ v ∈ cp.services, v.tuple = w.tuple → v.npsIndex = w.npsIndex) :
    cp.updateServiceStats w.tuple (nps.serviceCounters w.npsIndex) =
      cp.savedWhere nps (fun v => v.tuple = w.tuple) (fun _ => false) := by
  have hservices : cp.services.map (fun v =>
        if v.tuple = w.tuple then { v with serviceStats := nps.serviceCounters w.npsIndex }
          else v) =
      cp.services.map fun v => if decide (v.tuple = w.tuple) then v.saved nps else v := by
    refine List.map_congr_left fun v hv => ?_
    by_cases hvw : v.tuple = w.tuple
    · simp [hvw, DbService.saved, hw v hv hvw]
    · simp [hvw]
  simp [updateServiceStats, savedWhere, hservices]

/-- The `UPDATE` of a server saves its row. -/
theorem updateServerStats_eq (v : DbServer) :
    cp.updateServerStats v.ip v.port v.npsIndex (nps.serverCounters v.npsIndex) =
      cp.savedWhere nps (fun _ => false) (fun r => OfServer v.ip v.port v.npsIndex r) := by
  have hservers : cp.servers.map (fun r => if OfServer v.ip v.port v.npsIndex r then
        { r with server := { r.server with serverStats := nps.serverCounters v.npsIndex } }
      else r) =
      cp.servers.map fun r => if decide (OfServer v.ip v.port v.npsIndex r) then r.saved nps
        else r := by
    refine List.map_congr_left fun r _ => ?_
    by_cases hr : OfServer v.ip v.port v.npsIndex r
    · simp [hr, ServerRow.saved, hr.2.2]
    · simp [hr]
  simp [updateServerStats, savedWhere, hservers]

end Cp

section Clear

variable {s : Sys}

def Sys.savedWhere (s : Sys) (p : DbService → Bool) (q : ServerRow → Bool) : Sys :=
  { s with cp := s.cp.savedWhere s.nps p q }

theorem runStats_saveServiceStats {w : DbService}
    (hw : ∀ v ∈ s.cp.services, v.tuple = w.tuple → v.npsIndex = w.npsIndex) :
    s.runStats (internalDbSaveServiceStats w) =
      (.ok, s.savedWhere (fun v => v.tuple = w.tuple) (fun _ => false)) := by
  have hupdate (stats : DbStats) : s.runStats (updateServiceStats w.tuple stats) =
      (true, { s with cp := s.cp.updateServiceStats w.tuple stats }) := rfl
  simp only [internalDbSaveServiceStats, runStats_bind, runStats_getServiceCounters, hupdate,
    reduceCtorEq, if_false, runStats_pure, Cp.updateServiceStats_eq w hw, Sys.savedWhere]

theorem runStats_saveServerStats (v : DbServer) :
    s.runStats (internalDbSaveServerStats v) =
      (.ok, s.savedWhere (fun _ => false) fun r => Cp.OfServer v.ip v.port v.npsIndex r) := by
  have hupdate (stats : DbStats) : s.runStats (updateServerStats v.ip v.port v.npsIndex stats) =
      (true, { s with cp := s.cp.updateServerStats v.ip v.port v.npsIndex stats }) := rfl
  simp only [internalDbSaveServerStats, runStats_bind, runStats_getServerCounters, hupdate,
    reduceCtorEq, if_false, runStats_pure, Cp.updateServerStats_eq v, Sys.savedWhere]

/-- The row of one of the servers of a list. -/
def ofServers (vs : List DbServer) (r : ServerRow) : Bool :=
  vs.any fun v => Cp.OfServer v.ip v.port v.npsIndex r

theorem runStats_saveServers (serverList : List DbServer) (inds : List Nat) (s : Sys) :
    s.runStats (saveServers serverList inds) = (.ok, s.savedWhere (fun _ => false)
      (ofServers (inds.filterMap (cyclicNode serverList)))) := by
  induction inds generalizing s with
  | nil =>
    show (AlvsDbRc.ok, s) = _
    rw [Sys.savedWhere, show ofServers _ = fun _ => false from rfl, Cp.savedWhere_none]
  | cons ind inds ih =>
    unfold saveServers
    cases hnode : cyclicNode serverList ind with
    | none => rw [ih, List.filterMap_cons_none hnode]
    | some v =>
      simp only [runStats_bind, runStats_saveServerStats, ne_eq, not_true_eq_false, if_false, ih,
        List.filterMap_cons_some hnode, Sys.savedWhere]
      rw [Cp.savedWhere_savedWhere _ _ _ _ (fun _ => rfl) fun _ => rfl]
      rfl

/-- Different rows of servers have different indexes. -/
def Cp.IndexesDiffer (cp : Cp) : Prop :=
  ∀ r ∈ cp.servers, ∀ r' ∈ cp.servers, r.server.npsIndex = r'.server.npsIndex → r.srv = r'.srv

/-- The rows that the servers of a service name are its rows. -/
theorem ofServers_serverList {cp : Cp} (hidx : cp.IndexesDiffer) (t : ServiceTuple)
    {r : ServerRow} (hr : r ∈ cp.servers) :
    ofServers (cp.serverList t ⟨false, false⟩) r = decide (r.srv = t) := by
  rw [Bool.eq_iff_iff, ofServers, List.any_eq_true]
  constructor
  · rintro ⟨v, hv, hof⟩
    obtain ⟨r', hr', rfl⟩ := List.mem_map.mp hv
    obtain ⟨hmem, hsel⟩ := List.mem_filter.mp hr'
    have hsrv : r'.srv = t := by simpa [Cp.Selected] using hsel
    simpa [hsrv] using hidx r hr r' hmem (of_decide_eq_true hof).2.2
  · intro hsrv
    refine ⟨r.server, List.mem_map.mpr ⟨r, List.mem_filter.mpr ⟨hr, ?_⟩, rfl⟩, ?_⟩
    · simpa [Cp.Selected] using hsrv
    · simp [Cp.OfServer]

theorem Cp.IndexesDiffer.savedWhere {cp : Cp} (h : cp.IndexesDiffer) (nps : Nps)
    (p : DbService → Bool) (q : ServerRow → Bool) : (cp.savedWhere nps p q).IndexesDiffer := by
  intro r₁ hr₁ r₁' hr₁' hidx
  obtain ⟨r, hr, rfl⟩ := List.mem_map.mp hr₁
  obtain ⟨r', hr', rfl⟩ := List.mem_map.mp hr₁'
  have hkept (r : ServerRow) : (if q r then r.saved nps else r).srv = r.srv ∧
      (if q r then r.saved nps else r).server.npsIndex = r.server.npsIndex := by
    split <;> exact ⟨rfl, rfl⟩
  rw [(hkept r).2, (hkept r').2] at hidx
  rw [(hkept r).1, (hkept r').1]
  exact h r hr r' hr' hidx

/-- The first service of the loop is saved with its servers. -/
theorem savedWhere_service {w : DbService} (hidx : s.cp.IndexesDiffer) :
    (s.savedWhere (fun v => v.tuple = w.tuple) fun _ => false).savedWhere (fun _ => false)
      (ofServers (s.cp.serverList w.tuple ⟨false, false⟩)) =
    s.savedWhere (fun v => v.tuple = w.tuple) fun r => r.srv = w.tuple := by
  simp only [Sys.savedWhere]
  rw [Cp.savedWhere_savedWhere _ _ _ _ (fun _ => rfl) fun _ => rfl]
  refine congrArg (Sys.mk · s.nps) (Cp.savedWhere_congr (fun v _ => Bool.or_false _) ?_)
  intro r hr
  rw [Bool.false_or, ofServers_serverList hidx w.tuple hr]

/-- The services of `ws` are saved, and the servers of their tuples. -/
theorem runStats_saveServices (ws : List DbService) (serverCount : Nat) (s : Sys)
    (hidx : s.cp.IndexesDiffer)
    (hws : ∀ w ∈ ws, ∀ v ∈ s.cp.services, v.tuple = w.tuple → v.npsIndex = w.npsIndex) :
    s.runStats (saveServices serverCount ws) = (.ok, s.savedWhere
      (fun v => ws.any fun w => v.tuple = w.tuple) fun r => ws.any fun w => r.srv = w.tuple) := by
  induction ws generalizing s serverCount with
  | nil =>
    show (AlvsDbRc.ok, s) = _
    simp only [List.any_nil, Sys.savedWhere, Cp.savedWhere_none]
  | cons w ws ih =>
    obtain ⟨hw, hws⟩ := List.forall_mem_cons.mp hws
    have hcount (s : Sys) : s.runStats (getServerCount w.tuple) =
        (some (s.cp.serverList w.tuple ⟨false, false⟩).length, s) := rfl
    have hlist (s : Sys) : s.runStats (getServerList w.tuple) =
        (some (s.cp.serverList w.tuple ⟨false, false⟩), s) := rfl
    have hservers : (s.savedWhere (fun v => v.tuple = w.tuple) fun _ => false).cp.serverList
        w.tuple ⟨false, false⟩ = s.cp.serverList w.tuple ⟨false, false⟩ := by
      simp [Sys.savedWhere, Cp.savedWhere, Cp.serverList]
    have hws₁ : ∀ w' ∈ ws, ∀ v ∈ (s.savedWhere (fun v => v.tuple = w.tuple)
        fun r => r.srv = w.tuple).cp.services, v.tuple = w'.tuple → v.npsIndex = w'.npsIndex := by
      intro w' hw' v' hv'
      obtain ⟨v, hv, rfl⟩ := List.mem_map.mp hv'
      split <;> exact hws w' hw' v hv
    simp only [saveServices, runStats_bind, runStats_saveServiceStats hw, ne_eq, not_true_eq_false,
      if_false, hcount, hlist, hservers, Option.getD_some, runStats_saveServers,
      filterMap_cyclicNode, savedWhere_service hidx]
    rw [ih _ _ (hidx.savedWhere _ _ _) hws₁]
    simp only [Sys.savedWhere]
    rw [Cp.savedWhere_savedWhere _ _ _ _ (fun _ => rfl) fun _ => rfl]
    rfl

/-- The service of a row exists. -/
def Cp.HasService (cp : Cp) (r : ServerRow) : Bool := cp.services.any fun v => r.srv = v.tuple

/-- The statistics cleared : the counters of the services that exist and of their servers are
saved, and the statistics of errors and of interfaces are 0. -/
def Sys.clearedStats (s : Sys) : Sys where
  cp := s.cp.savedWhere s.nps (fun _ => true) s.cp.HasService
  nps := (s.nps.clearPosted alvsErrorStatsBase alvsNumOfAlvsErrorStats).clearPosted ifStatsBase
    (nwNumOfIfStats * (userNwIfNum + 1))

theorem runStats_clearStats (h : s.cp.Inv) (uninit : Nat) :
    s.runStats (alvsDbClearStats uninit) = (.ok, s.clearedStats) := by
  have hrows : s.runStats selectServices = (some s.cp.services, s) := by
    show (some (s.cp.services.take s.cp.services.length), s) = _
    rw [List.take_length]
  have hidx : s.cp.IndexesDiffer := fun r hr r' hr' hi =>
    congrArg ServerRow.srv (h.server_eq_of_index hr hr' hi)
  have hws : ∀ w ∈ s.cp.services, ∀ v ∈ s.cp.services, v.tuple = w.tuple →
      v.npsIndex = w.npsIndex := fun w hw v hv ht =>
    congrArg DbService.npsIndex (h.service_eq_of_tuple hv hw ht)
  have herrors (s : Sys) : s.runStats alvsDbCleanErrorStats = (.ok,
      { s with nps := s.nps.clearPosted alvsErrorStatsBase alvsNumOfAlvsErrorStats }) := rfl
  have hif (s : Sys) : s.runStats alvsDbCleanInterfaceStats = (.ok,
      { s with nps := s.nps.clearPosted ifStatsBase (nwNumOfIfStats * (userNwIfNum + 1)) }) := rfl
  have hall : s.cp.savedWhere s.nps (fun v => s.cp.services.any fun w => v.tuple = w.tuple)
      s.cp.HasService = s.cp.savedWhere s.nps (fun _ => true) s.cp.HasService :=
    Cp.savedWhere_congr (fun v hv => List.any_eq_true.mpr ⟨v, hv, by simp⟩) fun _ _ => rfl
  simp only [alvsDbClearStats, runStats_bind, hrows, runStats_saveServices _ _ _ hidx hws, herrors,
    hif, ne_eq, not_true_eq_false, if_false, runStats_pure, Sys.clearedStats, ← hall]
  rfl

end Clear

end Alvs

import Alvs.State
import Alvs.Lib.Prog

/-!
# The calls of the control plane

Every function of the control plane is a program over `CpCall` : one SQL statement on the
internal database, one operation on an index pool, or one call of the infrastructure
that accesses the chip. `cpHandle` says what a call does to the state. A call that can
fail fails where the environment says so, and then changes nothing.

The functions `internal_db_*` of the source prepare and execute one SQL statement each,
so each of them is one call, named after the function.
-/

namespace Alvs

open ProgLogic

/-- `enum alvs_db_rc`. -/
inductive AlvsDbRc
  | ok
  | failure
  | notSupported
  | internalError
  | npsError
  | fatalError
  deriving DecidableEq

/-- The conditions `EXCLUDE_WEIGHT_ZERO` and `EXCLUDE_INACTIVE` of a `SELECT`. -/
structure Exclude where
  weightZero : Bool
  inactive : Bool
  deriving DecidableEq

/-- An entry of a search structure. -/
inductive SearchEntry
  | serviceClassification (key : ServiceClassificationKey) (serviceIndex : UInt8)
  | serviceInfo (key : UInt8) (result : ServiceInfoResult)
  | schedInfo (key : UInt16) (serverIndex : UInt32)
  | serverInfo (key : UInt32) (result : ServerInfoResult)
  | serverClassification (key : ServerClassificationKey) (serverIndex : UInt32)
  | applicationInfo (key : UInt8) (result : AppInfoResult)

/-- The key of an entry of a search structure. -/
inductive SearchKey
  | serviceClassification (key : ServiceClassificationKey)
  | serviceInfo (key : UInt8)
  | schedInfo (key : UInt16)
  | serverInfo (key : UInt32)
  | serverClassification (key : ServerClassificationKey)

/-- The search structures that the control plane clears as a whole. -/
inductive StructId
  | serviceInfo
  | schedInfo

/-- The calls of the control plane. -/
inductive CpCall
  | internalDbGetService (service : ServiceTuple)
  | internalDbAddService (service : DbService)
  | internalDbModifyService (service : DbService)
  | internalDbDeleteService (service : ServiceTuple)
  | internalDbGetServiceCount
  | internalDbGetServiceList
  | internalDbClearAll
  | internalDbGetServerCount (service : ServiceTuple) (flags : Exclude)
  | internalDbGetServerList (service : ServiceTuple) (flags : Exclude)
  | internalDbGetServer (service : ServiceTuple) (ip : UInt32) (port : UInt16)
  | internalDbAddServer (service : ServiceTuple) (server : DbServer)
  | internalDbModifyServer (service : ServiceTuple) (server : DbServer)
  | internalDbDeleteServer (service : ServiceTuple) (ip : UInt32) (port : UInt16)
  | internalDbDeactivateServer (service : ServiceTuple) (ip : UInt32) (port : UInt16)
  | internalDbActivateServer (service : ServiceTuple) (server : DbServer)
  | internalDbAddApplicationInfo (alvsAppInfo : DbApplicationInfo)
  | internalDbGetApplicationInfo (applicationIndex : UInt8)
  | internalDbModifyApplicationInfo (alvsAppInfo : DbApplicationInfo)
  /-- `sqlite3_step` on the aging thread's `SELECT * FROM servers WHERE active=0`. -/
  | stepInactiveServers
  | serviceIndexPoolAlloc
  | serviceIndexPoolRelease (index : UInt32)
  | serviceIndexPoolRewind
  | serverIndexPoolAlloc
  | serverIndexPoolRelease (index : UInt32)
  | infraAddEntry (entry : SearchEntry)
  | infraModifyEntry (entry : SearchEntry)
  | infraDeleteEntry (key : SearchKey)
  | infraDeleteAllEntries (id : StructId)
  | infraGetLongCounter (addr : SumAddr)
  | infraClearLongCounters (addr : SumAddr) (count : UInt32)
  | infraClearPostedCounters (addr : SumAddr) (count : UInt32)
  /-- `EZapiPrm_WriteMem` of a zero word of server flags. -/
  | clearServerFlagsWord (addr : SumAddr)

/-- The result of a call. A call that can fail returns `none` or `false` when it does; a
`SELECT` of one row that finds no row returns `some none`. -/
def CpCall.Res : CpCall → Type
  | internalDbGetService _ => Option (Option DbService)
  | internalDbGetServiceCount => Option Nat
  | internalDbGetServiceList => Option (List DbService)
  | internalDbGetServerCount _ _ => Option Nat
  | internalDbGetServerList _ _ => Option (List DbServer)
  | internalDbGetServer _ _ _ => Option (Option DbServer)
  | internalDbGetApplicationInfo _ => Option (Option DbApplicationInfo)
  | stepInactiveServers => Option (Option ServerRow)
  | serviceIndexPoolAlloc => Option UInt32
  | serverIndexPoolAlloc => Option UInt32
  | serviceIndexPoolRelease _ => Unit
  | serviceIndexPoolRewind => Unit
  | serverIndexPoolRelease _ => Unit
  | infraGetLongCounter _ => Option UInt64
  | _ => Bool

/-- A program of the control plane. -/
abbrev CpProg := Prog CpCall CpCall.Res

/-! ## The calls as programs -/

def internalDbGetService (service : ServiceTuple) : CpProg (Option (Option DbService)) :=
  Prog.perform (CpCall.internalDbGetService service)

def internalDbAddService (service : DbService) : CpProg Bool :=
  Prog.perform (CpCall.internalDbAddService service)

def internalDbModifyService (service : DbService) : CpProg Bool :=
  Prog.perform (CpCall.internalDbModifyService service)

def internalDbDeleteService (service : ServiceTuple) : CpProg Bool :=
  Prog.perform (CpCall.internalDbDeleteService service)

def internalDbGetServiceCount : CpProg (Option Nat) :=
  Prog.perform (CpCall.internalDbGetServiceCount)

def internalDbGetServiceList : CpProg (Option (List DbService)) :=
  Prog.perform (CpCall.internalDbGetServiceList)

def internalDbClearAll : CpProg Bool :=
  Prog.perform (CpCall.internalDbClearAll)

def internalDbGetServerCount (service : ServiceTuple) (flags : Exclude) : CpProg (Option Nat) :=
  Prog.perform (CpCall.internalDbGetServerCount service flags)

def internalDbGetServerList (service : ServiceTuple) (flags : Exclude) :
    CpProg (Option (List DbServer)) :=
  Prog.perform (CpCall.internalDbGetServerList service flags)

def internalDbGetServer (service : ServiceTuple) (ip : UInt32) (port : UInt16) :
    CpProg (Option (Option DbServer)) :=
  Prog.perform (CpCall.internalDbGetServer service ip port)

def internalDbAddServer (service : ServiceTuple) (server : DbServer) : CpProg Bool :=
  Prog.perform (CpCall.internalDbAddServer service server)

def internalDbModifyServer (service : ServiceTuple) (server : DbServer) : CpProg Bool :=
  Prog.perform (CpCall.internalDbModifyServer service server)

def internalDbDeleteServer (service : ServiceTuple) (ip : UInt32) (port : UInt16) : CpProg Bool :=
  Prog.perform (CpCall.internalDbDeleteServer service ip port)

def internalDbDeactivateServer (service : ServiceTuple) (ip : UInt32) (port : UInt16) :
    CpProg Bool :=
  Prog.perform (CpCall.internalDbDeactivateServer service ip port)

def internalDbActivateServer (service : ServiceTuple) (server : DbServer) : CpProg Bool :=
  Prog.perform (CpCall.internalDbActivateServer service server)

def internalDbAddApplicationInfo (alvsAppInfo : DbApplicationInfo) : CpProg Bool :=
  Prog.perform (CpCall.internalDbAddApplicationInfo alvsAppInfo)

def internalDbGetApplicationInfo (applicationIndex : UInt8) :
    CpProg (Option (Option DbApplicationInfo)) :=
  Prog.perform (CpCall.internalDbGetApplicationInfo applicationIndex)

def internalDbModifyApplicationInfo (alvsAppInfo : DbApplicationInfo) : CpProg Bool :=
  Prog.perform (CpCall.internalDbModifyApplicationInfo alvsAppInfo)

def stepInactiveServers : CpProg (Option (Option ServerRow)) :=
  Prog.perform (CpCall.stepInactiveServers)

def serviceIndexPoolAlloc : CpProg (Option UInt32) :=
  Prog.perform (CpCall.serviceIndexPoolAlloc)

def serviceIndexPoolRelease (index : UInt32) : CpProg Unit :=
  Prog.perform (CpCall.serviceIndexPoolRelease index)

def serviceIndexPoolRewind : CpProg Unit :=
  Prog.perform (CpCall.serviceIndexPoolRewind)

def serverIndexPoolAlloc : CpProg (Option UInt32) :=
  Prog.perform (CpCall.serverIndexPoolAlloc)

def serverIndexPoolRelease (index : UInt32) : CpProg Unit :=
  Prog.perform (CpCall.serverIndexPoolRelease index)

def infraAddEntry (entry : SearchEntry) : CpProg Bool :=
  Prog.perform (CpCall.infraAddEntry entry)

def infraModifyEntry (entry : SearchEntry) : CpProg Bool :=
  Prog.perform (CpCall.infraModifyEntry entry)

def infraDeleteEntry (key : SearchKey) : CpProg Bool :=
  Prog.perform (CpCall.infraDeleteEntry key)

def infraDeleteAllEntries (id : StructId) : CpProg Bool :=
  Prog.perform (CpCall.infraDeleteAllEntries id)

def infraGetLongCounter (addr : SumAddr) : CpProg (Option UInt64) :=
  Prog.perform (CpCall.infraGetLongCounter addr)

def infraClearLongCounters (addr : SumAddr) (count : UInt32) : CpProg Bool :=
  Prog.perform (CpCall.infraClearLongCounters addr count)

def infraClearPostedCounters (addr : SumAddr) (count : UInt32) : CpProg Bool :=
  Prog.perform (CpCall.infraClearPostedCounters addr count)

def clearServerFlagsWord (addr : SumAddr) : CpProg Bool :=
  Prog.perform (CpCall.clearServerFlagsWord addr)

/-! ## The tables of the internal database -/

namespace Cp

/-- `SELECT * FROM services WHERE ip AND port AND protocol`. -/
def findService (cp : Cp) (t : ServiceTuple) : Option DbService :=
  cp.services.find? fun s => s.tuple = t

/-- `SELECT * FROM servers WHERE srv_ip AND srv_port AND srv_protocol AND ip AND port`. -/
def findServer (cp : Cp) (t : ServiceTuple) (ip : UInt32) (port : UInt16) : Option ServerRow :=
  cp.servers.find? fun r => r.key = (t, ip, port)

/-- A row that a `SELECT` with these conditions returns. -/
def Selected (t : ServiceTuple) (flags : Exclude) (r : ServerRow) : Bool :=
  r.srv = t && (!flags.weightZero || 0 < r.server.weight) && (!flags.inactive || r.server.active)

/-- `SELECT * FROM servers WHERE srv_ip AND srv_port AND srv_protocol` with the given
exclusions. -/
def serverList (cp : Cp) (t : ServiceTuple) (flags : Exclude) : List DbServer :=
  (cp.servers.filter (Selected t flags)).map ServerRow.server

/-- Update the rows with the primary key of `t`, `ip` and `port`. -/
def updateServer (cp : Cp) (t : ServiceTuple) (ip : UInt32) (port : UInt16)
    (f : DbServer → DbServer) : Cp :=
  { cp with
    servers := cp.servers.map fun r =>
      if r.key = (t, ip, port) then { r with server := f r.server } else r }

/-- `UPDATE services SET flags, sched_alg, sched_entries_count`. -/
def modifyService (cp : Cp) (v : DbService) : Cp :=
  { cp with
    services := cp.services.map fun r =>
      if r.tuple = v.tuple then
        { r with
          flags := v.flags
          schedAlg := v.schedAlg
          schedEntriesCount := v.schedEntriesCount }
      else r }

/-- `UPDATE application_info` of the row with the index of `v`, if there is one. -/
def modifyApplicationInfo (cp : Cp) (v : DbApplicationInfo) : Cp :=
  { cp with
    applicationInfo :=
      Function.update cp.applicationInfo v.applicationIndex
        ((cp.applicationInfo v.applicationIndex).map fun _ => v) }

/-- `INSERT INTO application_info`. -/
def addApplicationInfo (cp : Cp) (v : DbApplicationInfo) : Cp :=
  { cp with
    applicationInfo := Function.update cp.applicationInfo v.applicationIndex (some v) }

/-- `DELETE FROM servers`. -/
def deleteServer (cp : Cp) (t : ServiceTuple) (ip : UInt32) (port : UInt16) : Cp :=
  { cp with servers := cp.servers.filter fun r => r.key ≠ (t, ip, port) }

end Cp

/-- `active=0, server_flags=server_flags&~IP_VS_DEST_F_AVAILABLE`. -/
def DbServer.deactivated (s : DbServer) : DbServer :=
  { s with active := false, serverFlags := s.serverFlags &&& ~~~ipVsDestFAvailable }

/-- `SET weight, active=1, server_flags=server_flags|IP_VS_DEST_F_AVAILABLE, u_thresh,
l_thresh, conn_flags`, with the values of `v`. -/
def DbServer.activate (v : DbServer) (s : DbServer) : DbServer :=
  { s with
    weight := v.weight
    active := true
    serverFlags := s.serverFlags ||| ipVsDestFAvailable
    uThresh := v.uThresh
    lThresh := v.lThresh
    connFlags := v.connFlags }

/-- `SET weight, conn_flags, server_flags, u_thresh, l_thresh`, with the values of `v`. -/
def DbServer.modify (v : DbServer) (s : DbServer) : DbServer :=
  { s with
    weight := v.weight
    connFlags := v.connFlags
    serverFlags := v.serverFlags
    uThresh := v.uThresh
    lThresh := v.lThresh }

namespace Cp

/-- `DELETE FROM services` of one service and `UPDATE servers` of its servers. -/
def deleteService (cp : Cp) (t : ServiceTuple) : Cp :=
  { cp with
    services := cp.services.filter fun r => r.tuple ≠ t
    servers := cp.servers.map fun r =>
      if r.srv = t then { r with server := r.server.deactivated } else r }

/-- `DELETE FROM services` of all services and `UPDATE servers` of all servers. -/
def clearAll (cp : Cp) : Cp :=
  { cp with
    services := []
    servers := cp.servers.map fun r => { r with server := r.server.deactivated } }

end Cp

/-! ## The search structures and counters -/

namespace Nps

/-- Add or modify an entry : the chip treats both as an upsert. -/
def setEntry (nps : Nps) : SearchEntry → Nps
  | .serviceClassification k v =>
    { nps with serviceClassification := Function.update nps.serviceClassification k (some v) }
  | .serviceInfo k v => { nps with serviceInfo := Function.update nps.serviceInfo k (some v) }
  | .schedInfo k v => { nps with schedInfo := Function.update nps.schedInfo k (some v) }
  | .serverInfo k v => { nps with serverInfo := Function.update nps.serverInfo k (some v) }
  | .serverClassification k v =>
    { nps with serverClassification := Function.update nps.serverClassification k (some v) }
  | .applicationInfo k v =>
    { nps with applicationInfo := Function.update nps.applicationInfo k (some v) }

/-- Delete an entry; deleting a missing one changes nothing. -/
def eraseEntry (nps : Nps) : SearchKey → Nps
  | .serviceClassification k =>
    { nps with serviceClassification := Function.update nps.serviceClassification k none }
  | .serviceInfo k => { nps with serviceInfo := Function.update nps.serviceInfo k none }
  | .schedInfo k => { nps with schedInfo := Function.update nps.schedInfo k none }
  | .serverInfo k => { nps with serverInfo := Function.update nps.serverInfo k none }
  | .serverClassification k =>
    { nps with serverClassification := Function.update nps.serverClassification k none }

def eraseAllEntries (nps : Nps) : StructId → Nps
  | .serviceInfo => { nps with serviceInfo := fun _ => none }
  | .schedInfo => { nps with schedInfo := fun _ => none }

/-- The counters `addr, …, addr + count - 1`. -/
def InRange (addr : SumAddr) (count : UInt32) (a : SumAddr) : Prop :=
  a.external = addr.external ∧ a.msid = addr.msid ∧ addr.elementIndex ≤ a.elementIndex ∧
    a.elementIndex < addr.elementIndex + count

instance (addr : SumAddr) (count : UInt32) (a : SumAddr) : Decidable (InRange addr count a) :=
  inferInstanceAs (Decidable (_ ∧ _))

/-- Which counters a range has, where it does not wrap. -/
theorem inRange_bounds {addr a : SumAddr} {count : UInt32}
    (hcount : addr.elementIndex.toNat + count.toNat < 2 ^ 32) (h : InRange addr count a) :
    addr.elementIndex.toNat ≤ a.elementIndex.toNat ∧
      a.elementIndex.toNat < addr.elementIndex.toNat + count.toNat := by
  obtain ⟨-, -, hle, hlt⟩ := h
  refine ⟨UInt32.le_iff_toNat_le.mp hle, ?_⟩
  have hlt := UInt32.lt_iff_toNat_lt.mp hlt
  rwa [UInt32.toNat_add, Nat.mod_eq_of_lt hcount] at hlt

def clearPosted (nps : Nps) (addr : SumAddr) (count : UInt32) : Nps :=
  { nps with posted := fun a => if InRange addr count a then 0 else nps.posted a }

def clearOnDemand (nps : Nps) (addr : SumAddr) (count : UInt32) : Nps :=
  { nps with onDemand := fun a => if InRange addr count a then 0 else nps.onDemand a }

def clearFlagsWord (nps : Nps) (addr : SumAddr) : Nps :=
  { nps with serverFlagsWord := Function.update nps.serverFlagsWord addr 0 }

end Nps

/-! ## What a call does -/

/-- What a call leaves open : whether it fails, and which inactive row the aging thread's
`SELECT` returns next. -/
structure CpEnv where
  fails : Bool
  pick : Nat

namespace Sys

/-- Let the database or the search structures be changed by a call that can fail. -/
def attempt (e : CpEnv) (s : Sys) (s' : Sys) : Bool × Sys :=
  if e.fails then (false, s) else (true, s')

/-- The answer of a `SELECT` or a read that can fail. -/
def answer {α : Type} (e : CpEnv) (s : Sys) (a : α) : Option α × Sys :=
  (if e.fails then none else some a, s)

end Sys

/-- `INSERT INTO` fails on a primary key that the table has. -/
def cpHandle (e : CpEnv) : (op : CpCall) → Sys → op.Res × Sys
  | .internalDbGetService t, s => s.answer e (s.cp.findService t)
  | .internalDbAddService v, s =>
    if (s.cp.findService v.tuple).isSome then (false, s)
    else s.attempt e { s with cp := { s.cp with services := s.cp.services ++ [v] } }
  | .internalDbModifyService v, s => s.attempt e { s with cp := s.cp.modifyService v }
  | .internalDbDeleteService t, s => s.attempt e { s with cp := s.cp.deleteService t }
  | .internalDbGetServiceCount, s => s.answer e s.cp.services.length
  | .internalDbGetServiceList, s => s.answer e s.cp.services
  | .internalDbClearAll, s => s.attempt e { s with cp := s.cp.clearAll }
  | .internalDbGetServerCount t flags, s => s.answer e (s.cp.serverList t flags).length
  | .internalDbGetServerList t flags, s => s.answer e (s.cp.serverList t flags)
  | .internalDbGetServer t ip port, s => s.answer e ((s.cp.findServer t ip port).map (·.server))
  | .internalDbAddServer t v, s =>
    if (s.cp.findServer t v.ip v.port).isSome then (false, s)
    else s.attempt e { s with cp := { s.cp with servers := s.cp.servers ++ [⟨t, v⟩] } }
  | .internalDbModifyServer t v, s =>
    s.attempt e { s with cp := s.cp.updateServer t v.ip v.port v.modify }
  | .internalDbDeleteServer t ip port, s =>
    s.attempt e { s with cp := s.cp.deleteServer t ip port }
  | .internalDbDeactivateServer t ip port, s =>
    s.attempt e { s with cp := s.cp.updateServer t ip port DbServer.deactivated }
  | .internalDbActivateServer t v, s =>
    s.attempt e { s with cp := s.cp.updateServer t v.ip v.port v.activate }
  | .internalDbAddApplicationInfo v, s =>
    if (s.cp.applicationInfo v.applicationIndex).isSome then (false, s)
    else s.attempt e { s with cp := s.cp.addApplicationInfo v }
  | .internalDbGetApplicationInfo i, s => s.answer e (s.cp.applicationInfo i)
  | .internalDbModifyApplicationInfo v, s =>
    s.attempt e { s with cp := s.cp.modifyApplicationInfo v }
  | .stepInactiveServers, s => s.answer e (s.cp.servers.filter fun r => !r.server.active)[e.pick]?
  | .serviceIndexPoolAlloc, s =>
    match s.cp.serviceIndexPool.alloc with
    | none => (none, s)
    | some (i, p) => (some (.ofNat i), { s with cp := { s.cp with serviceIndexPool := p } })
  | .serviceIndexPoolRelease i, s =>
    ((), { s with cp := { s.cp with
      serviceIndexPool := s.cp.serviceIndexPool.release i.toNat } })
  | .serviceIndexPoolRewind, s =>
    ((), { s with cp := { s.cp with serviceIndexPool := s.cp.serviceIndexPool.rewind } })
  | .serverIndexPoolAlloc, s =>
    match s.cp.serverIndexPool.alloc with
    | none => (none, s)
    | some (i, p) => (some (.ofNat i), { s with cp := { s.cp with serverIndexPool := p } })
  | .serverIndexPoolRelease i, s =>
    ((), { s with cp := { s.cp with serverIndexPool := s.cp.serverIndexPool.release i.toNat } })
  | .infraAddEntry entry, s => s.attempt e { s with nps := s.nps.setEntry entry }
  | .infraModifyEntry entry, s => s.attempt e { s with nps := s.nps.setEntry entry }
  | .infraDeleteEntry key, s => s.attempt e { s with nps := s.nps.eraseEntry key }
  | .infraDeleteAllEntries id, s => s.attempt e { s with nps := s.nps.eraseAllEntries id }
  | .infraGetLongCounter a, s => s.answer e (counterValue (s.nps.onDemand a))
  | .infraClearLongCounters a n, s => s.attempt e { s with nps := s.nps.clearOnDemand a n }
  | .infraClearPostedCounters a n, s => s.attempt e { s with nps := s.nps.clearPosted a n }
  | .clearServerFlagsWord a, s => s.attempt e { s with nps := s.nps.clearFlagsWord a }

/-! ## The calls that look at the state first -/

section Handle

variable {e : CpEnv} {s : Sys}

theorem cpHandle_addService {v : DbService} (h : s.cp.findService v.tuple = none) :
    cpHandle e (.internalDbAddService v) s =
      s.attempt e { s with cp := { s.cp with services := s.cp.services ++ [v] } } := by
  have hnone : ¬ (s.cp.findService v.tuple).isSome := by simp [h]
  exact if_neg hnone

theorem cpHandle_addServer {t : ServiceTuple} {v : DbServer}
    (h : s.cp.findServer t v.ip v.port = none) :
    cpHandle e (.internalDbAddServer t v) s =
      s.attempt e { s with cp := { s.cp with servers := s.cp.servers ++ [⟨t, v⟩] } } := by
  have hnone : ¬ (s.cp.findServer t v.ip v.port).isSome := by simp [h]
  exact if_neg hnone

theorem cpHandle_addApplicationInfo (v : DbApplicationInfo) :
    cpHandle e (.internalDbAddApplicationInfo v) s =
      if (s.cp.applicationInfo v.applicationIndex).isSome then (false, s)
      else s.attempt e { s with cp := s.cp.addApplicationInfo v } := rfl

theorem cpHandle_serviceAlloc_none (h : s.cp.serviceIndexPool.alloc = none) :
    cpHandle e .serviceIndexPoolAlloc s = (none, s) := by
  delta cpHandle
  simp only [h]
  rfl

theorem cpHandle_serviceAlloc_some {i : Nat} {pool : WfPool serviceIndexPoolSize}
    (h : s.cp.serviceIndexPool.alloc = some (i, pool)) :
    cpHandle e .serviceIndexPoolAlloc s =
      (some (.ofNat i), { s with cp := { s.cp with serviceIndexPool := pool } }) := by
  delta cpHandle
  simp only [h]
  rfl

theorem cpHandle_serverAlloc_none (h : s.cp.serverIndexPool.alloc = none) :
    cpHandle e .serverIndexPoolAlloc s = (none, s) := by
  delta cpHandle
  simp only [h]
  rfl

theorem cpHandle_serverAlloc_some {i : Nat} {pool : WfPool serverIndexPoolSize}
    (h : s.cp.serverIndexPool.alloc = some (i, pool)) :
    cpHandle e .serverIndexPoolAlloc s =
      (some (.ofNat i), { s with cp := { s.cp with serverIndexPool := pool } }) := by
  delta cpHandle
  simp only [h]
  rfl

end Handle

end Alvs

import Alvs.Cp.Calls

/-!
# The state synchronisation daemons

`alvs_db_init_daemon`, `alvs_db_start_daemon` and `alvs_db_stop_daemon` : the commands that
set the roles of the load balancer, master and backup, in its row of the application info
table and in the entry of the chip. A request is a `struct ip_vs_daemon_user`; the daemons
that run at the start are an array of two of them, where state 0 means none.

What `getifaddrs` and `getnameinfo` return is an argument of the commands that call them.
-/

namespace Alvs

open ProgLogic

/-- `IP_VS_STATE_MASTER`. -/
def ipVsStateMaster : Int32 := 1

/-- `IP_VS_STATE_BACKUP`. -/
def ipVsStateBackup : Int32 := 2

/-- `struct ip_vs_daemon_user`. -/
structure IpVsDaemonUser where
  state : Int32
  mcastIfn : String
  syncid : Int32
  deriving DecidableEq

/-- What is read of a node of the list of `getifaddrs` : its name, its address in network
byte order where it is an IPv4 address, and whether `getnameinfo` succeeds on that. -/
structure IfAddr where
  ifaName : String
  inet : Option UInt32
  nameInfo : Bool
  deriving DecidableEq

/-- The sync id that is stored : the 8 low bits of the `int` of the request. -/
def IpVsDaemonUser.storedSyncid (d : IpVsDaemonUser) : UInt8 := d.syncid.toUInt32.toUInt8

def buildNpsApplicationInfoResult (cpDaemonInfo : DbApplicationInfo) : AppInfoResult where
  masterBit := cpDaemonInfo.isMaster
  backupBit := cpDaemonInfo.isBackup
  mSyncId := cpDaemonInfo.mSyncId
  bSyncId := cpDaemonInfo.bSyncId
  sourceIp := cpDaemonInfo.sourceIp

/-- The entry of the chip with the application info of this load balancer. -/
def applicationInfoEntry (cpDaemonInfo : DbApplicationInfo) : SearchEntry :=
  .applicationInfo alvsApplicationInfoIndex (buildNpsApplicationInfoResult cpDaemonInfo)

/-- The row once a daemon is started (`startSs`) or stopped. -/
def buildCpStateSyncDaemon (cpDaemonInfo : DbApplicationInfo) (d : IpVsDaemonUser)
    (startSs : Bool) : DbApplicationInfo :=
  if d.state = ipVsStateMaster then
    if startSs then
      { cpDaemonInfo with isMaster := true, mSyncId := d.storedSyncid }
    else
      { cpDaemonInfo with isMaster := false, mSyncId := 0, sourceIp := 0 }
  else if d.state = ipVsStateBackup then
    if startSs then
      { cpDaemonInfo with isBackup := true, bSyncId := d.storedSyncid }
    else
      { cpDaemonInfo with isBackup := false, bSyncId := 0 }
  else cpDaemonInfo

/-- The row once the two daemons of an array are started. -/
def buildCpStateSyncDaemons (cpDaemonInfo : DbApplicationInfo) (d d' : IpVsDaemonUser) :
    DbApplicationInfo :=
  let cpDaemonInfo := { cpDaemonInfo with applicationIndex := alvsApplicationInfoIndex }
  if d.state ≠ ipVsStateMaster ∧ d.state ≠ ipVsStateBackup then
    { cpDaemonInfo with
      isMaster := false
      mSyncId := 0
      isBackup := false
      bSyncId := 0
      sourceIp := 0 }
  else
    buildCpStateSyncDaemon (buildCpStateSyncDaemon cpDaemonInfo d true) d' true

/-- The loop over the interfaces : the row with the source address of a master, or `none`
where `getnameinfo` fails or no address has the name. `res` is whether one had it. -/
def mcastIfLoop (d : IpVsDaemonUser) :
    List IfAddr → Bool → DbApplicationInfo → Option DbApplicationInfo
  | [], res, cpDaemonInfo => if res then some cpDaemonInfo else none
  | iter :: ifaddr, res, cpDaemonInfo =>
    match iter.inet with
    | none => mcastIfLoop d ifaddr res cpDaemonInfo
    | some addr =>
      if iter.nameInfo = false then none
      else if iter.ifaName = d.mcastIfn then
        mcastIfLoop d ifaddr true
          (if d.state = ipVsStateMaster then { cpDaemonInfo with sourceIp := bswap32 addr }
          else cpDaemonInfo)
      else mcastIfLoop d ifaddr res cpDaemonInfo

/-- The row with the source address of a master, or `none` where the multicast interface of
the daemon is not configured. -/
def alvsDbHandleMcastIf (ifaddr : Option (List IfAddr)) (d : IpVsDaemonUser)
    (cpDaemonInfo : DbApplicationInfo) : Option DbApplicationInfo :=
  if d.state ≠ ipVsStateMaster ∧ d.state ≠ ipVsStateBackup then some cpDaemonInfo
  else
    match ifaddr with
    | none => none
    | some ifaddr => mcastIfLoop d ifaddr false cpDaemonInfo

/-- The cleared row that `alvs_db_init_daemon` begins with. -/
def DbApplicationInfo.zero : DbApplicationInfo := ⟨0, false, false, 0, 0, 0⟩

/-- Only the interface of the first daemon is looked at. -/
def alvsDbInitDaemon (ifaddr : Option (List IfAddr)) (d d' : IpVsDaemonUser) :
    CpProg AlvsDbRc := do
  match ← internalDbGetApplicationInfo DbApplicationInfo.zero.applicationIndex with
  | none => return .internalError
  | some row =>
    let some cpDaemonInfo := alvsDbHandleMcastIf ifaddr d
        (buildCpStateSyncDaemons (row.getD .zero) d d')
      | return .failure
    let stored ← (if row.isSome then internalDbModifyApplicationInfo cpDaemonInfo
      else internalDbAddApplicationInfo cpDaemonInfo)
    if stored = false then
      return .internalError
    if (← infraAddEntry (applicationInfoEntry cpDaemonInfo)) = false then
      return .npsError
    return .ok

/-- Write a row to the database and to the chip. -/
def modifyApplicationInfo (cpDaemonInfo : DbApplicationInfo) : CpProg AlvsDbRc := do
  if (← internalDbModifyApplicationInfo cpDaemonInfo) = false then
    return .internalError
  if (← infraModifyEntry (applicationInfoEntry cpDaemonInfo)) = false then
    return .npsError
  return .ok

def alvsDbStartDaemon (ifaddr : Option (List IfAddr)) (d : IpVsDaemonUser) :
    CpProg AlvsDbRc := do
  match ← internalDbGetApplicationInfo alvsApplicationInfoIndex with
  | none => return .internalError
  | some none => return .internalError
  | some (some row) =>
    if row.isMaster ∧ d.state = ipVsStateMaster then
      return .failure
    if row.isBackup ∧ d.state = ipVsStateBackup then
      return .failure
    let some cpDaemonInfo := alvsDbHandleMcastIf ifaddr d row
      | return .failure
    modifyApplicationInfo (buildCpStateSyncDaemon cpDaemonInfo d true)

def alvsDbStopDaemon (d : IpVsDaemonUser) : CpProg AlvsDbRc := do
  match ← internalDbGetApplicationInfo alvsApplicationInfoIndex with
  | none => return .internalError
  | some none => return .internalError
  | some (some row) =>
    if row.isMaster = false ∧ d.state = ipVsStateMaster then
      return .failure
    if row.isBackup = false ∧ d.state = ipVsStateBackup then
      return .failure
    modifyApplicationInfo (buildCpStateSyncDaemon row d false)

end Alvs

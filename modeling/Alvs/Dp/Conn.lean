import Alvs.Dp.StateSync

/-!
# Connections

The functions of `alvs_conn.h` : creation and deletion of entries, the changes of an entry
under the connection lock, and the fast path of a packet of a known connection. Each change
takes the lock of the key in `conn_class_key` and reads the entry again under it.
-/

namespace Alvs

open ProgLogic

/-! ## Entries -/

def alvsConnInfoLookup (site : ConnSite) (connIndex : UInt32) : Dp Bool := do
  match ← dpCall (.connInfoLookup site connIndex) with
  | none => pure false
  | some c =>
    modify fun m => { m with connInfoResult := c }
    pure true

/-- Put `c` in `conn_info_result` and modify the entry. -/
def alvsConnInfoModify (connIndex : UInt32) (c : ConnInfoResult) : Dp Bool := do
  modify fun m => { m with connInfoResult := c }
  dpCall (.connInfoModify connIndex c)

/-- `enum alvs_service_output_result`. -/
inductive AlvsServiceOutputResult
  | ignore
  | retry
  | success
  deriving DecidableEq

/-- The entry of a new connection. The state is compared before it is cut to 8 bits. -/
def newConnInfo (key : ConnClassificationKey) (bound : Bool) (server : UInt32)
    (port connState : UInt16) (flags : UInt32) (reset : Bool) : ConnInfoResult where
  agingBit := true
  deleteBit := reset
  resetBit := reset
  bound := bound
  serverPort := port
  serverIndex := server
  connClassKey := key
  connState := connState.toUInt8
  ageIteration := 0
  connFlags :=
    if connState = ipVsTcpSEstablished.toUInt16 then flags &&& ~~~ipVsConnFInactive
    else flags ||| ipVsConnFInactive

/-- Count a new connection. -/
def alvsConnCreateStatistics (connState : UInt16) : Dp Unit :=
  if connState = ipVsTcpSEstablished.toUInt16 then alvsUpdateConnectionStatistics 1 1 0
  else alvsUpdateConnectionStatistics 1 0 1

def alvsConnCreateNewEntry (bound : Bool) (server : UInt32) (port connState : UInt16)
    (flags : UInt32) (reset : Bool) : Dp AlvsServiceOutputResult := do
  match ← dpCall (.allocIndex bound) with
  | none =>
    alvsServerOverloadOnDeleteConn server.toUInt16
    alvsDiscardAndStats .connIndexAllocFail
    pure .ignore
  | some connIndex =>
    let key := (← get).connClassKey
    let c := newConnInfo key bound server port connState flags reset
    modify fun m => { m with connInfoResult := c }
    dpCall (.connInfoAdd connIndex c)
    modify fun m => { m with connResultIndex := connIndex }
    if ← dpCall (.connClassAdd bound key connIndex) then
      (if bound then alvsConnCreateStatistics connState else pure ())
      pure .success
    else
      let _ ← dpCall (.connInfoDelete .create connIndex)
      alvsServerOverloadOnDeleteConn server.toUInt16
      dpCall (.freeIndex connIndex)
      alvsDiscardAndStats .connClassAllocFail
      pure .ignore

/-! ## Changes of an entry -/

/-- The entry with its state updated. -/
def ConnInfoResult.updated (c : ConnInfoResult) (newState : UInt8) : ConnInfoResult :=
  { c with
    deleteBit := false
    agingBit := true
    connState := newState
    connFlags := c.connFlags ||| ipVsConnFInactive }

def alvsConnUpdateState (connIndex : UInt32) (newState : UInt8) : Dp Bool := do
  let hashValue ← alvsLockConnection
  if ← alvsConnInfoLookup .updateState connIndex then
    let c := (← get).connInfoResult
    if c.connState = newState ∨ c.deleteBit = true then
      alvsUnlockConnection hashValue
      pure true
    else
      alvsUpdateConnectionStatistics 0 (-1) 1
      let rc ← alvsConnInfoModify connIndex (c.updated newState)
      modify fun m => { m with connSyncState := { m.connSyncState with connSyncStatus := .need } }
      alvsUnlockConnection hashValue
      pure rc
  else
    alvsUnlockConnection hashValue
    pure false

/-- A reset takes an established connection to the state `CLOSE_WAIT`. -/
def ConnInfoResult.closesOnReset (c : ConnInfoResult) (reset : Bool) : Prop :=
  reset = true ∧ c.connState = ipVsTcpSEstablished

instance (c : ConnInfoResult) (reset : Bool) : Decidable (c.closesOnReset reset) :=
  inferInstanceAs (Decidable (_ ∧ _))

/-- The entry marked to be deleted. -/
def ConnInfoResult.marked (c : ConnInfoResult) (reset : Bool) : ConnInfoResult :=
  { c with
    agingBit := false
    deleteBit := true
    resetBit := reset
    connState := if c.closesOnReset reset then ipVsTcpSCloseWait else c.connState
    connFlags := if c.closesOnReset reset then c.connFlags ||| ipVsConnFInactive else c.connFlags }

def alvsConnMarkToDelete (connIndex : UInt32) (reset : Bool) : Dp Bool := do
  let hashValue ← alvsLockConnection
  if ← alvsConnInfoLookup (.markToDelete reset) connIndex then
    let c := (← get).connInfoResult
    if c.deleteBit then
      alvsUnlockConnection hashValue
      pure true
    else
      (if c.closesOnReset reset then alvsUpdateConnectionStatistics 0 (-1) 1 else pure ())
      let rc ← alvsConnInfoModify connIndex (c.marked reset)
      alvsUnlockConnection hashValue
      pure rc
  else
    alvsUnlockConnection hashValue
    pure false

/-- Count the deletion of a connection. -/
def alvsConnDeleteStatistics (connState : UInt8) : Dp Unit :=
  if connState = ipVsTcpSEstablished then alvsUpdateConnectionStatistics 0 (-1) 0
  else alvsUpdateConnectionStatistics 0 0 (-1)

/-- Take a deleted connection off its server, if the server is found. Of an unbound
connection, `server_index` is the address of its server. -/
def alvsConnReleaseServer (c : ConnInfoResult) : Dp Unit := do
  if ← alvsServerInfoLookup c.serverIndex then
    alvsConnDeleteStatistics c.connState
    alvsServerOverloadOnDeleteConn c.serverIndex.toUInt16

/-- Delete the entry of `conn_info_result`. -/
def alvsConnDeleteWithoutLock (site : DeleteSite) (connIndex : UInt32) : Dp Unit := do
  let c := (← get).connInfoResult
  if ← dpCall (.connClassDelete site c.connClassKey connIndex) then
    if ← dpCall (.connInfoDelete site connIndex) then
      alvsConnReleaseServer c
      dpCall (.freeIndex connIndex)

/-- The deletion by the scan of an aging iteration. The entry is not read again. -/
def alvsConnDelete (iterationNum : UInt8) (connIndex : UInt32) : Dp Unit := do
  let hashValue ← alvsLockConnection
  alvsConnDeleteWithoutLock (.aging iterationNum) connIndex
  alvsUnlockConnection hashValue

def alvsConnRefresh (connIndex : UInt32) : Dp Bool := do
  let hashValue ← alvsLockConnection
  if ← alvsConnInfoLookup .refresh connIndex then
    let c := (← get).connInfoResult
    let rc ← alvsConnInfoModify connIndex { c with agingBit := true, deleteBit := false }
    alvsUnlockConnection hashValue
    pure rc
  else
    alvsUnlockConnection hashValue
    pure false

/-- An entry that another thread has bound is left with the lock taken. -/
def alvsConnBind (connIndex serverIndex : UInt32) : Dp Bool := do
  let hashValue ← alvsLockConnection
  if ← alvsConnInfoLookup .bind connIndex then
    let c := (← get).connInfoResult
    if c.bound then
      pure true
    else
      let rc ← alvsConnInfoModify connIndex { c with serverIndex := serverIndex, bound := true }
      alvsUnlockConnection hashValue
      pure rc
  else
    alvsUnlockConnection hashValue
    pure false

def alvsConnAgeOut (connIndex : UInt32) (iterationNum : UInt8) : Dp Bool := do
  let hashValue ← alvsLockConnection
  if ← alvsConnInfoLookup .ageOut connIndex then
    let c := (← get).connInfoResult
    let rc ← alvsConnInfoModify connIndex
      { c with agingBit := false, ageIteration := connAgeIteration iterationNum c.connState }
    alvsUnlockConnection hashValue
    pure rc
  else
    alvsUnlockConnection hashValue
    pure false

/-! ## The fast path -/

/-- The fields of an IPv4 header that are read. -/
structure IpHdr where
  saddr : UInt32
  daddr : UInt32
  protocol : UInt8
  deriving DecidableEq

/-- The fields of a TCP header that are read. -/
structure TcpHdr where
  source : UInt16
  dest : UInt16
  fin : Bool
  rst : Bool
  deriving DecidableEq

/-- Send the state of the connection if it is marked for it and this is a master. -/
def alvsConnSendSync : Dp Unit := do
  let m ← get
  if m.connSyncState.connSyncStatus = .need then
    match ← dpCall .appInfoLookup with
    | some app => if app.masterBit then alvsStateSyncSendSingle app.sourceIp app.mSyncId
    | none => pure ()

def alvsConnDoRoute : Dp Unit := do
  let m ← get
  if m.serverInfoResult.connFlags &&& ipVsConnFFwdMask = ipVsConnFDroute then
    nwDoRoute
      (if m.connInfoResult.bound then m.serverInfoResult.serverIp else m.connInfoResult.serverAddr)
    alvsUpdateIncomingTrafficStats
    alvsConnSendSync
  else
    alvsDiscardAndStats .unsupportedRoutingAlgo

/-- Try to bind an unbound connection to its server. -/
def alvsConnTryBind (connIndex : UInt32) : Dp Unit := do
  let m ← get
  if m.connInfoResult.bound = false then
    match ← alvsFindServerIndex m.connInfoResult.serverAddr m.connClassKey.virtualIp
      m.connInfoResult.serverPort m.connClassKey.virtualPort m.connClassKey.protocol with
    | some serverIndex => discard (alvsConnBind connIndex serverIndex)
    | none => pure ()

/-- Find the server of a bound connection. The packet is dropped, and `false` returned, if
there is none or it is not available. -/
def alvsConnCheckServer (connIndex : UInt32) : Dp Bool := do
  let c := (← get).connInfoResult
  if c.bound then
    if ← alvsServerInfoLookup c.serverIndex then
      if (← get).serverInfoResult.available then
        pure true
      else
        let marked ← alvsConnMarkToDelete connIndex false
        alvsDiscardAndStats (if marked then .destServerIsNotAvail else .cantMarkDelete)
        pure false
    else
      alvsDiscardAndStats .serverInfoLkupFail
      pure false
  else
    pure true

/-- Record a reset or the end of the connection, or refresh the entry. The packet is
dropped, and `false` returned, if the entry cannot be changed. -/
def alvsConnCheckState (tcpHdr : TcpHdr) (connIndex : UInt32) : Dp Bool := do
  let c := (← get).connInfoResult
  if tcpHdr.rst then
    let _ ← alvsConnMarkToDelete connIndex true
    pure true
  else if c.connState = ipVsTcpSEstablished ∧ tcpHdr.fin = true then
    if ← alvsConnUpdateState connIndex ipVsTcpSCloseWait then
      pure true
    else
      alvsDiscardAndStats .cantUpdateConnectionState
      pure false
  else if c.agingBit = false then
    if ← alvsConnRefresh connIndex then
      pure true
    else
      alvsDiscardAndStats .cantUpdateConnectionState
      pure false
  else
    pure true

def alvsConnDataPath (tcpHdr : TcpHdr) (connIndex : UInt32) : Dp Unit := do
  if ← alvsConnInfoLookup .dataPath connIndex then
    alvsConnTryBind connIndex
    if (← get).connInfoResult.resetBit then
      alvsDiscardAndStats .connMarkToDelete
    else if ← alvsConnCheckServer connIndex then
      if ← alvsConnCheckState tcpHdr connIndex then
        alvsConnDoRoute
  else
    alvsDiscardAndStats .connInfoLkupFail

end Alvs
